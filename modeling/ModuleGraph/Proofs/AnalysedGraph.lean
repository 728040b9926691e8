import Mathlib
import ModuleGraph.Proofs.ExtractedModule
import ModuleGraph.Proofs.ProjectExtraction
import ModuleGraph.TypeScript.Statement

/-! The graph that the analysis of a project ends with. It holds what single files declare, under
the names they declare, and every import in it is linked to a module of the same graph or to
nothing at all. -/

namespace ModuleGraph

namespace ModuleMap

/-- A relinked import shows a module of the relinked graph, or nothing. -/
theorem relink_cases (m : ModuleMap) (i : ImportRecord) :
    (∃ t, m.find? i.name = some t ∧ (i.relink m).path = t.filePath ∧
      (m.mapRecords (·.relinkImports m)).find? i.name = some (t.relinkImports m) ∧
      (i.relink m).snapshot = some ⟨t.name, t.providers, t.controllers⟩) ∨
    (m.find? i.name = none ∧ (i.relink m).path = none ∧ (i.relink m).snapshot = none ∧
      (m.mapRecords (·.relinkImports m)).find? i.name = none) := by
  cases ht : m.find? i.name with
  | none => exact .inr (by simp [ImportRecord.relink, ht])
  | some t => exact .inl ⟨t, rfl, by simp [ImportRecord.relink, ModuleRecord.snapshot, ht]⟩

end ModuleMap

namespace Project

variable {parse : String → Node} {stack : Stack} {d : Disk}

theorem declares_of_declared {file : Path} {decl : Declaration}
    (h : declared parse d file = .ok (some decl)) : ∃ source, d.readLossy file = .ok source ∧
      Declares (parse source) file.text decl.record.name decl.kept := by
  unfold declared at h
  cases hsource : d.readLossy file with
  | error e => simp [hsource] at h
  | ok source =>
    simp only [hsource, Except.ok.injEq, Declaration.ofSource?, Option.map_eq_some_iff] at h
    obtain ⟨record, hrecord, rfl⟩ := h
    exact ⟨source, rfl, .of_readModule hrecord⟩

/-- Every entry of an extracted graph is what some file of the walk declares. -/
theorem declares_of_extract {s : Settings} {root : Path} {m : ModuleMap}
    (h : (extract parse stack d s root).result.1 = .ok m) :
    ∃ files, (moduleFiles stack d s root).result.1 = .ok files ∧
      ∀ e ∈ m.entries, ∃ file ∈ files, ∃ source, d.readLossy file = .ok source ∧
        Declares (parse source) file.text e.1 e.2 := by
  obtain ⟨files, found, hfiles, hfound, rfl⟩ := result_extract_eq_ok_iff.mp h
  refine ⟨files, hfiles, fun e he => ?_⟩
  rcases ModuleMap.mem_entries_registerAll he with ⟨decl, hdecl, rfl⟩ | he
  · obtain ⟨own, hown, hmem⟩ := List.mem_flatMap.mp hdecl
    obtain ⟨file, hfile, hdeclared⟩ := mem_of_mapM_eq_ok hfound own hown
    rw [Option.mem_toList.mp hmem] at hdeclared
    exact ⟨file, hfile, declares_of_declared hdeclared⟩
  · simp [ModuleMap.empty] at he

/-- The graph of an analysed project is consistent. Each entry stands under its own name, which
is no decoy's, and is what one of the walked files declares up to what its imports are linked
to. Each import shows a module of this graph as the graph has it, with the file of this module
for its path, or has neither path nor snapshot; made-up names are never linked. This holds whatever
parses the files. -/
theorem analyze_consistent {path : Path} {name : Option String} {project : Project}
    (h : (analyze parse stack d path name).result.1 = .ok project) :
    ∃ settings files, (Settings.load stack d project.root).result.1 = .ok settings ∧
      (moduleFiles stack d settings project.root).result.1 = .ok files ∧
      ∀ key r, (key, r) ∈ project.modules.entries →
        r.name = key ∧ ¬ "Unknown".toList <:+: key.toList ∧ ¬ "Angular".toList <:+: key.toList ∧
        (∃ file ∈ files, r.filePath = some file.text ∧ ∃ source, d.readLossy file = .ok source ∧
          Declares (parse source) file.text key r) ∧
        ∀ i ∈ r.imports,
          ((∃ t, project.modules.find? i.name = some t ∧ t.filePath.isSome ∧
              i.path = t.filePath ∧ i.snapshot = some ⟨t.name, t.providers, t.controllers⟩) ∨
            (project.modules.find? i.name = none ∧ i.path = none ∧ i.snapshot = none)) ∧
          ∀ n, i.name = placeholder "UnknownModule" n → i.path = none ∧ i.snapshot = none := by
  obtain ⟨settings, m, hsettings, hm, hlinked⟩ := exists_extract_of_analyze h
  obtain ⟨files, hfiles, hentries⟩ := declares_of_extract hm
  have hdeclares : ∀ e ∈ m.entries, ∃ root file, Declares root file e.1 e.2 := by
    intro e he
    obtain ⟨file, -, source, -, hdeclares⟩ := hentries e he
    exact ⟨_, _, hdeclares⟩
  rw [(ModuleMap.namedByToken_of_declares hdeclares).link_eq] at hlinked
  refine ⟨settings, files, hsettings, hfiles, fun key r hr => ?_⟩
  rw [hlinked] at hr ⊢
  obtain ⟨e, he, hpair⟩ := List.mem_map.mp hr
  obtain ⟨rfl, rfl⟩ := Prod.mk.inj hpair
  obtain ⟨file, hfile, source, hsource, hdeclared⟩ := hentries e he
  have hrelinked := hdeclared.relinkImports m
  have hclean : ¬ isDecoy e.1 = true := by simp [hrelinked.isDecoy_eq]
  rw [isDecoy_iff, not_or] at hclean
  refine ⟨hrelinked.name_eq, hclean.1, hclean.2,
    ⟨file, hfile, hrelinked.filePath_eq, source, hsource, hrelinked⟩, fun i hi => ?_⟩
  obtain ⟨start, -, rfl⟩ := List.mem_map.mp hi
  rcases m.relink_cases start with
    ⟨t, ht, hpath, hfound, hsnapshot⟩ | ⟨ht, hpath, hsnapshot, hfound⟩
  · obtain ⟨root, file, htarget⟩ := hdeclares _ (ModuleMap.mem_entries_of_find? ht)
    refine ⟨.inl ⟨t.relinkImports m, hfound, ?_, hpath, hsnapshot⟩, fun n hn => ?_⟩
    · rw [(htarget.relinkImports m).filePath_eq]
      rfl
    · -- A module would have to be named like a decoy.
      have hname : start.name = placeholder "UnknownModule" n := hn
      have hdecoy := htarget.isDecoy_eq
      rw [hname, isDecoy_unknownModule] at hdecoy
      cases hdecoy
  · exact ⟨.inr ⟨hfound, hpath, hsnapshot⟩, fun _ _ => ⟨hpath, hsnapshot⟩⟩

/-- A project whose first module imports the second and one that is missing. -/
def importing : Disk where
  tree := .directory [("p", .directory
    [("a.module.ts", .file ("import {B} from './b'; @Module({imports:[B,C]}) class A{}".toList.map
        fun c => c.toNat.toUInt8)),
      ("b.module.ts", .file ("@Module({}) class B{}".toList.map fun c => c.toNat.toUInt8))])]
  here := []

def importingRoot : Path := ⟨"/", ["p"]⟩

def importingFirst : Path := ⟨"/", ["p", "a.module.ts"]⟩

def importingSecond : Path := ⟨"/", ["p", "b.module.ts"]⟩

def importingDeclarations : List Declaration :=
  [⟨importingFirst.text,
      { name := "A", filePath := some importingFirst.text,
        imports := [{ name := "B", path := some "./b" }, { name := "C" }] }⟩,
    ⟨importingSecond.text, { name := "B", filePath := some importingSecond.text }⟩]

def importingModules : ModuleMap :=
  ModuleMap.empty.registerAll importingDeclarations

theorem extract_importing :
    (extract TypeScript.parse .usual importing {} importingRoot).result.1 = .ok importingModules := by
  have hfiles : (moduleFiles .usual importing {} importingRoot).result.1 =
      .ok [importingFirst, importingSecond] := by
    cbv
  have hfound : [importingFirst, importingSecond].mapM (declared TypeScript.parse importing) =
      .ok (importingDeclarations.map some) := by
    decide +kernel
  exact result_extract_eq_ok_iff.mpr ⟨_, _, hfiles, hfound, rfl⟩

theorem analyze_importing : (analyze TypeScript.parse .usual importing importingRoot none).result.1 =
    .ok ⟨.text "p", importingRoot, importingModules.link⟩ := by
  have hroot : importing.resolve? importingRoot = some importingRoot := by decide +kernel
  have hdirectory : importing.isDirectory importingRoot = .ok true := by decide +kernel
  have hsettings : (Settings.load .usual importing importingRoot).result.1 = .ok {} := by rfl
  rw [result_analyze none hroot hdirectory]
  refine bind_eq_ok.mpr ⟨_, hsettings, bind_eq_ok.mpr ⟨.text "p", by rfl, ?_⟩⟩
  rw [if_pos (by rfl), extract_importing]
  rfl

theorem analyze_consistent_importing :
    ∃ project, (analyze TypeScript.parse .usual importing importingRoot none).result.1 = .ok project ∧
      ∃ r, ("A", r) ∈ project.modules.entries ∧
        r.imports.map (fun i => (i.name, i.path)) =
          [("B", some "/p/b.module.ts"), ("C", none)] ∧
        ∀ i ∈ r.imports, i.path.isSome = (project.modules.find? i.name).isSome := by
  have htokens : importingModules.NamedByToken := by
    simp [ModuleMap.NamedByToken, show importingModules.providers = [] by rfl]
  have hentry : ("A", { name := "A", filePath := some importingFirst.text, imports := [
        { name := "B", path := some "/p/b.module.ts", snapshot := some { name := "B" } },
        { name := "C" }] }) ∈ importingModules.link.entries := by
    rw [htokens.link_eq]
    exact List.mem_cons_self
  obtain ⟨settings, files, -, -, hentries⟩ := analyze_consistent analyze_importing
  obtain ⟨-, -, -, -, himports⟩ := hentries _ _ hentry
  refine ⟨_, analyze_importing, _, hentry, rfl, fun i hi => ?_⟩
  rcases (himports i hi).1 with ⟨t, ht, hsome, hpath, -⟩ | ⟨ht, hpath, -⟩
  · rw [ht, hpath, hsome]
    rfl
  · rw [ht, hpath]
    rfl

end Project

end ModuleGraph
