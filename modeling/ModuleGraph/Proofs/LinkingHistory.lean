import ModuleGraph.Proofs.ExtractedModule
import ModuleGraph.Proofs.SavedGraph
import ModuleGraph.Session
import ModuleGraph.TypeScript.Statement

/-! Graphs that are worked on in steps and get their modules from files only. Linking leaves
nothing behind in them that a later linking would see: it never touches what the files declare,
and it overwrites or clears all the rest. -/

namespace ModuleGraph

theorem ModuleMap.unlinked_insert (m : ModuleMap) (name : String) (r : ModuleRecord) :
    (m.insert name r).unlinked = m.unlinked.insert name r.unlinked :=
  m.mapRecords_insert name r _

theorem ModuleMap.unlinked_erase (m : ModuleMap) (name : String) :
    (m.erase name).unlinked = m.unlinked.erase name :=
  m.mapRecords_erase name _

namespace Session

/-- Whether a step takes modules from nowhere but files. -/
def Step.fromFiles : Step → Bool
  | load _ | replace _ => false
  | _ => true

def Step.isLink : Step → Bool
  | link => true
  | _ => false

/-- The graph that is left after some steps. -/
def after (m : ModuleMap) (steps : List Step) : ModuleMap :=
  ((runAll m steps).getLast?.map (·.modules)).getD m

theorem after_cons (m : ModuleMap) (s : Step) (steps : List Step) :
    after m (s :: steps) = after (s.run m).modules steps := by
  cases steps with
  | nil => rfl
  | cons t steps =>
    simp only [after, runAll, List.getLast?_cons, Option.map_some, Option.getD_some]

theorem after_append (m : ModuleMap) (pre post : List Step) :
    after m (pre ++ post) = after (after m pre) post := by
  induction pre generalizing m with
  | nil => rfl
  | cons s pre ih => rw [List.cons_append, after_cons, after_cons, ih]

theorem modules_registerFile (m : ModuleMap) (root : Node) (file : String) :
    (registerFile m root file).modules =
      ((readModule root file {}).module.map fun r => m.register ⟨file, r⟩).getD m := by
  unfold registerFile
  cases hread : (readModule root file {}).module with
  | none => simp [hread]
  | some r => simp [hread]

/-- Saving and loading gives the graph as it was. A number that is too long fails to load, and
then the graph is left alone. -/
theorem modules_reload (m : ModuleMap) : (Step.reload.run m).modules = m := by
  have hyields : Json.Yields True (Document.load m.renderJson) m.document :=
    m.yields_load_renderJson fun _ _ => .inl trivial
  simp only [Step.run, loadInto]
  rcases hyields with hload | ⟨-, e, hload⟩
  · simp [hload, ModuleMap.modules?_document]
  · simp [hload]

/-- Each entry is what the file of one of the steps declares, up to what its imports are
linked to. -/
def Registered (steps : List Step) (m : ModuleMap) : Prop :=
  ∀ e ∈ m.entries, ∃ root file, .register root file ∈ steps ∧ Declares root file e.1 e.2

namespace Registered

variable {steps : List Step} {m : ModuleMap}

theorem empty : Registered steps .empty := by
  intro e he
  cases he

theorem namedByToken (h : Registered steps m) : m.NamedByToken := by
  apply ModuleMap.namedByToken_of_declares
  intro e he
  obtain ⟨root, file, -, hdeclares⟩ := h e he
  exact ⟨root, file, hdeclares⟩

theorem registerFile (h : Registered steps m) {root : Node} {file : String}
    (hs : .register root file ∈ steps) : Registered steps (registerFile m root file).modules := by
  rw [modules_registerFile]
  cases hread : (readModule root file {}).module with
  | none => exact h
  | some r =>
    intro e he
    rcases eq_or_mem_of_mem_upsert he with rfl | he
    · exact ⟨root, file, hs, .of_readModule hread⟩
    · exact h e he

theorem erase (h : Registered steps m) (name : String) : Registered steps (m.erase name) :=
  fun e he => h e (List.mem_of_mem_filter he)

theorem link (h : Registered steps m) : Registered steps m.link := by
  rw [h.namedByToken.link_eq]
  intro e he
  obtain ⟨start, hstart, rfl⟩ := List.mem_map.mp he
  obtain ⟨root, file, hs, hdeclares⟩ := h start hstart
  exact ⟨root, file, hs, hdeclares.relinkImports m⟩

theorem step (h : Registered steps m) {s : Step} (hs : s ∈ steps) (hfiles : s.fromFiles = true) :
    Registered steps (s.run m).modules := by
  cases s with
  | register root file => exact h.registerFile hs
  | load text => cases hfiles
  | replace modules => cases hfiles
  | reload => rwa [modules_reload]
  | remove name => exact h.erase name
  | link => exact h.link
  | closure name => exact h
  | render format => exact h

theorem after {todo : List Step} (h : Registered steps m) (hsub : todo ⊆ steps)
    (hfiles : ∀ s ∈ todo, s.fromFiles = true) : Registered steps (after m todo) := by
  induction todo generalizing m with
  | nil => exact h
  | cons s todo ih =>
    rw [List.cons_subset] at hsub
    rw [List.forall_mem_cons] at hfiles
    rw [after_cons]
    exact ih (h.step hsub.1 hfiles.1) hsub.2 hfiles.2

end Registered

/-- Steps other than linking act alike on graphs that differ only in what imports lead to. -/
theorem unlinked_run {m m' : ModuleMap} (h : m.unlinked = m'.unlinked) {s : Step}
    (hfiles : s.fromFiles = true) (hlink : s.isLink = false) :
    (s.run m).modules.unlinked = (s.run m').modules.unlinked := by
  cases s with
  | register root file =>
    simp only [Step.run, modules_registerFile]
    cases (readModule root file {}).module with
    | none => exact h
    | some r =>
      simp only [Option.map_some, Option.getD_some, ModuleMap.register, ModuleMap.unlinked_insert,
        h]
  | load text => cases hfiles
  | replace modules => cases hfiles
  | reload => rwa [modules_reload, modules_reload]
  | remove name => simp only [Step.run, ModuleMap.unlinked_erase, h]
  | link => cases hlink
  | closure name => exact h
  | render format => exact h

theorem unlinked_after_filter {steps todo : List Step} {m m' : ModuleMap}
    (h : m.unlinked = m'.unlinked) (hm : Registered steps m) (hsub : todo ⊆ steps)
    (hfiles : ∀ s ∈ todo, s.fromFiles = true) :
    (after m todo).unlinked = (after m' (todo.filter (!·.isLink))).unlinked := by
  induction todo generalizing m m' with
  | nil => exact h
  | cons s todo ih =>
    rw [List.cons_subset] at hsub
    rw [List.forall_mem_cons] at hfiles
    have hnext := hm.step hsub.1 hfiles.1
    rw [after_cons]
    cases hlink : s.isLink with
    | false =>
      rw [List.filter_cons_of_pos (by simp [hlink]), after_cons]
      exact ih (unlinked_run h hfiles.1 hlink) hnext hsub.2 hfiles.2
    | true =>
      -- The shorter run stands still here, and linking is not seen without imports.
      obtain rfl : s = .link := by cases s <;> first | rfl | cases hlink
      have hsame : (Step.link.run m).modules.unlinked = m'.unlinked :=
        hm.namedByToken.unlinked_link.trans h
      rw [List.filter_cons_of_neg (by simp [Step.isLink])]
      exact ih hsame hnext hsub.2 hfiles.2

theorem after_filter_link {pre : List Step} (hfiles : ∀ s ∈ pre, s.fromFiles = true)
    (post : List Step) : after .empty (pre ++ .link :: post) =
      after .empty (pre.filter (!·.isLink) ++ .link :: post) := by
  have hsame : (after .empty pre).unlinked = (after .empty (pre.filter (!·.isLink))).unlinked :=
    unlinked_after_filter rfl .empty (List.Subset.refl pre) hfiles
  have hlinked := ModuleMap.link_eq_of_unlinked_eq hsame
  rw [after_append, after_append, after_cons, after_cons]
  simp only [Step.run, hlinked]

/-- Linking has no history in graphs that get their modules from files only. At all times each
module has the providers, with their dependencies, that its file declares; linking leaves them
as they are; and what is saved after some linking is what would be saved if all linking before
that were left out. -/
theorem linking_has_no_history {pre : List Step} (hfiles : ∀ s ∈ pre, s.fromFiles = true) :
    (∀ key r, (key, r) ∈ (after .empty pre).entries → ∃ root file read,
      .register root file ∈ pre ∧ (readModule root file {}).module = some read ∧
        key = read.name ∧ r.providers = read.providers) ∧
    (after .empty (pre ++ [.link])).entries.map (fun e => (e.1, e.2.providers)) =
      (after .empty pre).entries.map (fun e => (e.1, e.2.providers)) ∧
    ∀ post, (after .empty (pre ++ .link :: post)).renderJson =
      (after .empty (pre.filter (!·.isLink) ++ .link :: post)).renderJson := by
  have hregistered : Registered pre (after .empty pre) :=
    Registered.empty.after (List.Subset.refl pre) hfiles
  refine ⟨?_, ?_, fun post => by rw [after_filter_link hfiles]⟩
  · intro key r hr
    obtain ⟨root, file, hs, read, hread, hkey, hunlinked⟩ := hregistered (key, r) hr
    have hproviders : r.providers = read.providers := congrArg (·.providers) hunlinked
    exact ⟨root, file, read, hs, hread, hkey, hproviders⟩
  · have hlast : after .empty (pre ++ [.link]) = (after .empty pre).link := by
      rw [after_append, after_cons]
      rfl
    rw [hlast, hregistered.namedByToken.link_eq]
    simp [ModuleMap.mapRecords, ModuleRecord.relinkImports]

def importingFile : Step :=
  .register (TypeScript.parse
    "@Module({imports:[B],providers:[S]}) class A{} class S{constructor(t:T){}}") "a.module.ts"

def importedFile : Step :=
  .register (TypeScript.parse "@Module({}) class B{}") "b.module.ts"

theorem linking_has_no_history_removed :
    (after .empty [importingFile, importedFile, .link]).entries.map
        (fun e => (e.1, e.2.providers.map (·.dependencies))) = [("A", [["T"]]), ("B", [])] ∧
    (after .empty [importingFile, importedFile, .link, .remove "B", .link]).renderJson =
      (after .empty [importingFile, importedFile, .remove "B", .link]).renderJson := by
  have hfiles : ∀ s ∈ [importingFile, importedFile], s.fromFiles = true := by decide
  have hremoving : ∀ s ∈ [importingFile, importedFile, .link, .remove "B"],
      s.fromFiles = true := by decide
  obtain ⟨-, hkept, -⟩ := linking_has_no_history hfiles
  obtain ⟨-, -, hsaved⟩ := linking_has_no_history hremoving
  have hdeclared : (after .empty [importingFile, importedFile]).entries.map
      (fun e => (e.1, e.2.providers.map (·.dependencies))) = [("A", [["T"]]), ("B", [])] := by
    decide +kernel
  refine ⟨?_, hsaved []⟩
  have hlinked := congrArg (List.map fun e => (e.1, e.2.map ProviderRecord.dependencies)) hkept
  rw [List.map_map, List.map_map] at hlinked
  exact hlinked.trans hdeclared

end Session

end ModuleGraph
