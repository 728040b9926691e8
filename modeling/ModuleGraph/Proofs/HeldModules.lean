import Mathlib
import ModuleGraph.Proofs.ProjectExtraction
import ModuleGraph.TypeScript.Statement

/-! Which files the modules of an extracted graph come from. A class with a configuration
object gives its module its name; every other module class gets a placeholder, and as each file
counts its own placeholders, these are all the same. -/

namespace ModuleGraph

/-- The name that the module of a class is registered under. -/
def registeredName (c : ClassDeclaration × String) : String :=
  if c.1.configuration?.isSome then c.2 else placeholder "Module" 1

theorem name_readModule (root : Node) (file : String) :
    (readModule root file {}).module.map (·.name) =
      (moduleClass? root.topLevelClasses).map registeredName := by
  dsimp only [readModule]
  rcases moduleClass? root.topLevelClasses with _ | ⟨decl, name⟩
  · rfl
  · dsimp only [Option.map_some, registeredName]
    cases decl.configuration? <;> rfl

/-- Two classes of different names share a registered name only by a placeholder. -/
theorem eq_or_configuration?_eq_none {c c' : ClassDeclaration × String}
    (h : registeredName c = registeredName c') :
    c.2 = c'.2 ∨ c.1.configuration? = none ∨ c'.1.configuration? = none := by
  unfold registeredName at h
  cases hc : c.1.configuration? with
  | none => exact .inr (.inl rfl)
  | some config =>
    cases hc' : c'.1.configuration? with
    | none => exact .inr (.inr rfl)
    | some config' => exact .inl (by simpa [hc, hc'] using h)

namespace Project

/-- The class that a file declares its module with, and the name of the class. -/
def classOf? (parse : String → Node) (d : Disk) (file : Path) :
    Option (ClassDeclaration × String) :=
  match d.readLossy file with
  | .ok source => moduleClass? (parse source).topLevelClasses
  | .error _ => none

variable {parse : String → Node} {stack : Stack} {d : Disk} {file : Path}
variable {c : ClassDeclaration × String}

theorem map_declared {found : Option Declaration} (h : declared parse d file = .ok found) :
    found.map (fun decl => (decl.file, decl.record.name)) =
      (classOf? parse d file).map (fun c => (file.text, registeredName c)) := by
  unfold declared at h
  unfold classOf?
  cases hsource : d.readLossy file with
  | error e => simp [hsource] at h
  | ok source =>
    simp only [hsource, Except.ok.injEq] at h
    have hname := name_readModule (parse source) file.text
    have hpair := congrArg (Option.map (fun name => (file.text, name))) hname
    rw [← h, Declaration.ofSource?, Option.map_map]
    simpa [Option.map_map, Function.comp_def] using hpair

theorem exists_class_of_declared {decl : Declaration}
    (h : declared parse d file = .ok (some decl)) : ∃ c, classOf? parse d file = some c ∧
      decl.file = file.text ∧ decl.record.name = registeredName c := by
  have hclass := (map_declared h).symm
  rw [Option.map_some, Option.map_eq_some_iff] at hclass
  obtain ⟨c, hc, hpair⟩ := hclass
  obtain ⟨hfile, hname⟩ := Prod.mk.inj hpair
  exact ⟨c, hc, hfile.symm, hname.symm⟩

theorem exists_declaration_of_class {found : Option Declaration}
    (h : declared parse d file = .ok found) (hc : classOf? parse d file = some c) :
    ∃ decl, found = some decl ∧ decl.record.name = registeredName c := by
  have hdecl := map_declared h
  rw [hc, Option.map_some, Option.map_eq_some_iff] at hdecl
  obtain ⟨decl, hfound, hpair⟩ := hdecl
  exact ⟨decl, hfound, (Prod.mk.inj hpair).2⟩

/-- The name of a declaration among those of some files holds what its own file declares, or
what a later one of these does. -/
theorem exists_holder {pre post : List Path} {found : List (Option Declaration)} (m : ModuleMap)
    (hfound : (pre ++ file :: post).mapM (declared parse d) = .ok found)
    (hc : classOf? parse d file = some c) :
    ∃ holder ∈ file :: post, ∃ decl, declared parse d holder = .ok (some decl) ∧
      decl.record.name = registeredName c ∧
      (m.registerAll (found.flatMap Option.toList)).find? (registeredName c) = some decl.kept := by
  obtain ⟨before, own, after, rfl, hown, hafter⟩ := mapM_append_cons_eq_ok hfound
  obtain ⟨decl, rfl, hname⟩ := exists_declaration_of_class hown hc
  obtain ⟨kept, hmem, hsame, hheld⟩ := m.exists_find?_registerAll
    (before.flatMap Option.toList) decl (after.flatMap Option.toList)
  have hdecls : (before ++ some decl :: after).flatMap Option.toList =
      before.flatMap Option.toList ++ decl :: after.flatMap Option.toList := by simp
  rw [← hdecls] at hheld
  rw [hname] at hsame hheld
  rcases List.mem_cons.mp hmem with rfl | hlater
  · exact ⟨file, List.mem_cons_self, kept, hown, hsame, hheld⟩
  · obtain ⟨o, ho, hkept⟩ := List.mem_flatMap.mp hlater
    obtain ⟨holder, hholder, hdeclared⟩ := mem_of_mapM_eq_ok hafter o ho
    rw [Option.mem_toList.mp hkept] at hdeclared
    exact ⟨holder, List.mem_cons_of_mem _ hholder, kept, hdeclared, hsame, hheld⟩

/-- The registered name of a file's class holds the module of that file or of a later one with
this name, and only a placeholder can stand for classes of different names. This holds whatever
parses the files. -/
theorem find?_extract {s : Settings} {root : Path} {m : ModuleMap}
    (h : (extract parse stack d s root).result.1 = .ok m) :
    ∃ files, (moduleFiles stack d s root).result.1 = .ok files ∧
      ∀ pre file post c, files = pre ++ file :: post → classOf? parse d file = some c →
        ∃ holder ∈ file :: post, ∃ c', classOf? parse d holder = some c' ∧
          registeredName c' = registeredName c ∧
          (c'.2 = c.2 ∨ c'.1.configuration? = none ∨ c.1.configuration? = none) ∧
          ∃ r, m.find? (registeredName c) = some r ∧ r.name = registeredName c ∧
            r.filePath = some holder.text := by
  obtain ⟨files, found, hfiles, hfound, rfl⟩ := result_extract_eq_ok_iff.mp h
  refine ⟨files, hfiles, fun pre file post c hsplit hc => ?_⟩
  rw [hsplit] at hfound
  obtain ⟨holder, hmem, decl, hdeclared, hname, hheld⟩ := exists_holder .empty hfound hc
  obtain ⟨c', hc', hfile, hname'⟩ := exists_class_of_declared hdeclared
  have hsame : registeredName c' = registeredName c := hname'.symm.trans hname
  exact ⟨holder, hmem, c', hc', hsame, eq_or_configuration?_eq_none hsame, decl.kept, hheld,
    hname, congrArg some hfile⟩

def asciiFile (text : String) : FileTree :=
  .file (text.toList.map fun c => c.toNat.toUInt8)

/-- A project with two files. The classes that they declare carry decorators without a
configuration object. -/
def bareDecorators : Disk where
  tree := .directory [("project", .directory
    [("a.module.ts", asciiFile "@Module class A {}"),
      ("b.module.ts", asciiFile "@Module class B {}")])]
  here := []

def bareRoot : Path := ⟨"/", ["project"]⟩

def bareFirst : Path := ⟨"/", ["project", "a.module.ts"]⟩

def bareSecond : Path := ⟨"/", ["project", "b.module.ts"]⟩

theorem moduleFiles_bareDecorators :
    (moduleFiles .usual bareDecorators {} bareRoot).result.1 = .ok [bareFirst, bareSecond] := by
  cbv

theorem classOf?_bareDecorators :
    (classOf? TypeScript.parse bareDecorators bareFirst).map (fun c => (c.2, registeredName c)) =
        some ("A", "Module_1") ∧
      (classOf? TypeScript.parse bareDecorators bareSecond).map (fun c => (c.2, registeredName c)) =
        some ("B", "Module_1") := by
  decide +kernel

theorem extract_bareDecorators : ∃ m, (extract TypeScript.parse .usual bareDecorators {} bareRoot).result.1 = .ok m ∧
    m.records = [{ name := "Module_1", filePath := some bareSecond.text }] := by
  have hdeclared : [bareFirst, bareSecond].mapM (declared TypeScript.parse bareDecorators) =
      .ok [some ⟨bareFirst.text, { name := "Module_1" }⟩,
        some ⟨bareSecond.text, { name := "Module_1" }⟩] := by
    decide +kernel
  refine ⟨ModuleMap.empty.registerAll [⟨bareFirst.text, { name := "Module_1" }⟩,
    ⟨bareSecond.text, { name := "Module_1" }⟩], ?_, ?_⟩
  · exact result_extract_eq_ok_iff.mpr ⟨_, _, moduleFiles_bareDecorators, hdeclared, rfl⟩
  · rfl

/-- Both classes are registered under one name, and the first file is in no record. -/
theorem extract_loses_module : ∃ m, (extract TypeScript.parse .usual bareDecorators {} bareRoot).result.1 = .ok m ∧
    (moduleFiles .usual bareDecorators {} bareRoot).result.1 = .ok [bareFirst, bareSecond] ∧
    (classOf? TypeScript.parse bareDecorators bareFirst).map Prod.snd = some "A" ∧
    (classOf? TypeScript.parse bareDecorators bareSecond).map Prod.snd = some "B" ∧
    ∀ r ∈ m.records, r.filePath ≠ some bareFirst.text := by
  obtain ⟨m, hm, hrecords⟩ := extract_bareDecorators
  obtain ⟨hfirst, hsecond⟩ := classOf?_bareDecorators
  refine ⟨m, hm, moduleFiles_bareDecorators, ?_, ?_, ?_⟩
  · simpa using congrArg (Option.map Prod.fst) hfirst
  · simpa using congrArg (Option.map Prod.fst) hsecond
  · rw [hrecords, List.forall_mem_singleton]
    decide

theorem find?_extract_bareDecorators :
    ∃ m, (extract TypeScript.parse .usual bareDecorators {} bareRoot).result.1 = .ok m ∧
      ∃ r, m.find? "Module_1" = some r ∧ r.filePath = some bareSecond.text := by
  obtain ⟨m, hm, -⟩ := extract_bareDecorators
  obtain ⟨c, hc, hpair⟩ := Option.map_eq_some_iff.mp classOf?_bareDecorators.2
  obtain ⟨files, hfiles, hheld⟩ := find?_extract hm
  rw [moduleFiles_bareDecorators, Except.ok.injEq] at hfiles
  obtain ⟨holder, hmem, -, -, -, -, r, hr, -, hpath⟩ :=
    hheld [bareFirst] bareSecond [] c hfiles.symm hc
  rw [List.mem_singleton] at hmem
  rw [(Prod.mk.inj hpair).2] at hr
  exact ⟨m, hm, r, hr, hmem ▸ hpath⟩

end Project

end ModuleGraph
