import ModuleGraph.FileReader
import ModuleGraph.Proofs.Enrichment
import ModuleGraph.Proofs.RepeatedDependency

/-! What a reading of a file leaves behind makes no difference to the next reading of the same
file, except for the next placeholder number. All that is remembered belongs to names that the
file gives to its own module and providers, and these are written anew before they are used. -/

namespace ModuleGraph

theorem mem_keys_lastDeclared {providers : List ProviderRecord} {name : String} :
    name ∈ (lastDeclared providers).map Prod.fst ↔ name ∈ providers.map (·.name) := by
  simp [lastDeclared]

theorem closure_lastDeclared_append {providers : List ProviderRecord} {table : DependencyTable}
    (h : ∀ x ∈ table.map Prod.fst, x ∈ providers.map (·.name)) (name : String) :
    (lastDeclared providers ++ table).closure name = (lastDeclared providers ++ []).closure name := by
  apply DependencyTable.closure_congr
  intro x
  rw [DependencyTable.direct, DependencyTable.direct, List.lookup_append, List.lookup_append]
  cases hlookup : (lastDeclared providers).lookup x with
  | some ds => rfl
  | none =>
    have hnew : x ∉ table.map Prod.fst := by
      intro hx
      exact lookup_eq_none_iff_notMem.mp hlookup (mem_keys_lastDeclared.mpr (h x hx))
    rw [lookup_eq_none_iff_notMem.mpr hnew, List.lookup_nil]

namespace ModuleRecord

/-- A draft with what its imports and providers depend on, as far as that is remembered. -/
def filled (draft : ModuleRecord) (memory : Memory) : ModuleRecord :=
  { draft with
    imports := enrichImports ((draft.name, draft.listed) :: memory.modules) draft.imports
    providers := enrichProviders (lastDeclared draft.providers ++ memory.providers)
      draft.providers }

theorem names_filled (draft : ModuleRecord) (memory : Memory) :
    (draft.filled memory).providers.map (·.name) = draft.providers.map (·.name) := by
  simp [filled, enrichProviders, Function.comp_def]

theorem listed_filled (draft : ModuleRecord) (memory : Memory) :
    (draft.filled memory).listed = draft.listed := by
  rw [listed, listed, names_filled]
  simp [filled, enrichImports, Function.comp_def]

end ModuleRecord

section Draft

variable {root : Node} {file : String} {decl : ClassDeclaration} {name : String} {n next : Nat}
  {draft : ModuleRecord}

theorem readModule_of_none (hclass : moduleClass? root.topLevelClasses = none) (file : String)
    (memory : Memory) :
    readModule root file memory = ⟨none, memory, decoyNotices file root.topLevelClasses⟩ := by
  simp [readModule, hclass]

theorem readModule_of_some (hclass : moduleClass? root.topLevelClasses = some (decl, name))
    {memory : Memory}
    (hdraft : draftModule root file name memory.nextId decl.configuration? = (draft, next)) :
    readModule root file memory =
      { module := some (draft.filled memory)
        memory :=
          { nextId := next
            modules := (draft.name, draft.listed) :: memory.modules
            providers := lastDeclared (draft.filled memory).providers ++
              (lastDeclared draft.providers ++ memory.providers) }
        notices := decoyNotices file root.topLevelClasses ++
          draftNotices root file memory.nextId decl.configuration? } := by
  cases hconfig : decl.configuration? with
  | none =>
    rw [hconfig, draftModule, Prod.mk.injEq] at hdraft
    obtain ⟨rfl, rfl⟩ := hdraft
    simp only [readModule, hclass, hconfig]
    rfl
  | some config =>
    rw [hconfig, draftModule, Prod.mk.injEq] at hdraft
    obtain ⟨rfl, rfl⟩ := hdraft
    simp only [readModule, hclass, hconfig, configuredReading, remember_eq]
    rfl

theorem providers_of_draft (hclass : moduleClass? root.topLevelClasses = some (decl, name))
    (hdraft : draftModule root file name n decl.configuration? = (draft, next)) :
    draft.providers = root.declaredProviders := by
  have hdraft' : draft = (draftModule root file name n decl.configuration?).1 := by rw [hdraft]
  cases hconfig : decl.configuration? <;>
    simp [hdraft', draftModule, Node.declaredProviders, Node.providerElements, hclass, hconfig]

/-- The module of a class with a configuration object has the name of the class, and that of a
class without one has no imports. -/
theorem name_or_imports_of_draft
    (hdraft : draftModule root file name n decl.configuration? = (draft, next)) :
    draft.imports = [] ∨ draft.name = name ∧ decl.configuration?.isSome := by
  have hdraft' : draft = (draftModule root file name n decl.configuration?).1 := by rw [hdraft]
  cases hconfig : decl.configuration? with
  | none => exact .inl (by simp [hdraft', hconfig, draftModule])
  | some config => exact .inr ⟨by simp [hdraft', hconfig, draftModule], rfl⟩

/-- The number of placeholders that one reading of a file makes up: one for a class without a
configuration object, and otherwise one for each import that names no module. -/
def Node.placeholderCount (root : Node) : Nat :=
  match moduleClass? root.topLevelClasses with
  | none => 0
  | some (decl, _) =>
    match decl.configuration? with
    | none => 1
    | some config => ((config.arrayProperty? "imports").getD []).countP (·.importTarget?.isNone)

theorem next_importRecords (root : Node) (n : Nat) (elements : List Node) :
    (importRecords root n elements).2 = n + elements.countP (·.importTarget?.isNone) := by
  induction elements generalizing n with
  | nil => rfl
  | cons e es ih =>
    rw [importRecords, List.countP_cons]
    cases htarget : e.importTarget? with
    | none =>
      have hrest := ih (n + 1)
      simp only [hrest, Option.isNone_none, if_true]
      omega
    | some target =>
      have hrest := ih n
      simpa using hrest

theorem next_of_draft (hclass : moduleClass? root.topLevelClasses = some (decl, name))
    (hdraft : draftModule root file name n decl.configuration? = (draft, next)) :
    next = n + root.placeholderCount := by
  have hnext : next = (draftModule root file name n decl.configuration?).2 := by rw [hdraft]
  cases hconfig : decl.configuration? with
  | none => simp [hnext, draftModule, Node.placeholderCount, hclass, hconfig]
  | some config =>
    simp [hnext, draftModule, Node.placeholderCount, hclass, hconfig, next_importRecords]

theorem nextId_readModule (root : Node) (file : String) (memory : Memory) :
    (readModule root file memory).memory.nextId = memory.nextId + root.placeholderCount := by
  cases hclass : moduleClass? root.topLevelClasses with
  | none =>
    rw [readModule_of_none hclass]
    simp [Node.placeholderCount, hclass]
  | some c =>
    obtain ⟨decl, name⟩ := c
    rcases hdraft : draftModule root file name memory.nextId decl.configuration? with ⟨draft, next⟩
    rw [readModule_of_some hclass hdraft]
    exact next_of_draft hclass hdraft

end Draft

/-- All names that are remembered are those of the file's own providers and, if its class has a
configuration object, of this class. -/
structure Memory.Confined (root : Node) (memory : Memory) : Prop where
  providers : ∀ x ∈ memory.providers.map Prod.fst, x ∈ root.declaredProviders.map (·.name)
  modules : ∀ decl name, moduleClass? root.topLevelClasses = some (decl, name) →
    decl.configuration?.isSome → ∀ x ∈ memory.modules.map Prod.fst, x = name

namespace Memory.Confined

variable {root : Node} {memory : Memory}

theorem empty (root : Node) (n : Nat) : Memory.Confined root { nextId := n } :=
  ⟨by simp, by simp⟩

theorem readModule (h : memory.Confined root) (file : String) :
    (readModule root file memory).memory.Confined root := by
  cases hclass : moduleClass? root.topLevelClasses with
  | none =>
    rw [readModule_of_none hclass]
    exact h
  | some c =>
    obtain ⟨decl, name⟩ := c
    rcases hdraft : draftModule root file name memory.nextId decl.configuration? with ⟨draft, next⟩
    have hproviders := providers_of_draft hclass hdraft
    rw [readModule_of_some hclass hdraft]
    constructor
    · intro x hx
      simp only [List.map_append, List.mem_append, mem_keys_lastDeclared,
        ModuleRecord.names_filled, hproviders] at hx
      rcases hx with hx | hx | hx
      · exact hx
      · exact hx
      · exact h.providers x hx
    · intro decl' name' hclass' hconfig x hx
      rw [hclass] at hclass'
      cases hclass'
      rcases List.mem_cons.mp hx with rfl | hx
      · obtain ⟨config, hconfig⟩ := Option.isSome_iff_exists.mp hconfig
        rw [hconfig, draftModule, Prod.mk.injEq] at hdraft
        rw [← hdraft.1]
      · exact h.modules _ _ hclass hconfig x hx

/-- A reading goes as it would if nothing but the next placeholder number were remembered. -/
theorem module_readModule (h : memory.Confined root) (file : String) :
    (ModuleGraph.readModule root file memory).module =
      (ModuleGraph.readModule root file { nextId := memory.nextId }).module := by
  cases hclass : moduleClass? root.topLevelClasses with
  | none => rw [readModule_of_none hclass, readModule_of_none hclass]
  | some c =>
    obtain ⟨decl, name⟩ := c
    rcases hdraft : draftModule root file name memory.nextId decl.configuration? with ⟨draft, next⟩
    have himports : enrichImports ((draft.name, draft.listed) :: memory.modules) draft.imports =
        enrichImports [(draft.name, draft.listed)] draft.imports := by
      rcases name_or_imports_of_draft hdraft with hnone | ⟨hname, hconfig⟩
      · rw [hnone]
        rfl
      · apply List.map_congr_left
        intro i _
        by_cases hself : i.name = draft.name
        · simp [hself]
        · have hnew : i.name ∉ memory.modules.map Prod.fst := by
            intro hi
            exact hself ((h.modules _ _ hclass hconfig _ hi).trans hname.symm)
          have hlookup := lookup_eq_none_iff_notMem.mpr hnew
          simp [List.lookup_cons, beq_false_of_ne hself, hlookup]
    have hproviders : enrichProviders (lastDeclared draft.providers ++ memory.providers)
          draft.providers =
        enrichProviders (lastDeclared draft.providers ++ []) draft.providers := by
      have hdeclared := h.providers
      rw [← providers_of_draft hclass hdraft] at hdeclared
      apply List.map_congr_left
      intro p _
      rw [closure_lastDeclared_append hdeclared]
    have hfresh : draftModule root file name ({ nextId := memory.nextId } : Memory).nextId
        decl.configuration? = (draft, next) := hdraft
    rw [readModule_of_some hclass hdraft, readModule_of_some hclass hfresh, ModuleRecord.filled,
      ModuleRecord.filled, himports, hproviders]

end Memory.Confined

end ModuleGraph
