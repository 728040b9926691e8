import ModuleGraph.Proofs.AlikeNodes

/-! Trees from which the same modules are read. A reading asks a tree for what names stand for
and for the configuration of the class that declares the module, and for nothing else. -/

namespace ModuleGraph

open Node

namespace Node

/-- Elements of an array that stand for the same in every list of a configuration. -/
structure SameEntry (e e' : Node) : Prop where
  labels : SameLabels e e'
  target : e'.importTarget? = e.importTarget?
  entities : e'.entityCount = e.entityCount
  provider : ∀ root, provider? root e' = provider? root e

/-- Object literals that configure a module in the same way. -/
def SameConfiguration (c c' : Node) : Prop :=
  ∀ name, Option.Rel (List.Forall₂ SameEntry) (c.arrayProperty? name) (c'.arrayProperty? name)

variable {c c' : Node}

theorem SameConfiguration.entries (h : SameConfiguration c c') (name : String) :
    List.Forall₂ SameEntry ((c.arrayProperty? name).getD [])
      ((c'.arrayProperty? name).getD []) := by
  rcases rel_cases (h name) with ⟨ha, ha'⟩ | ⟨es, es', ha, ha', hes⟩
  · rw [ha, ha']
    exact .nil
  · rw [ha, ha']
    exact hes

theorem SameConfiguration.identifierList (h : SameConfiguration c c') (name : String) :
    c'.identifierList name = c.identifierList name :=
  map_list_eq_of_rel
    (List.rel_filter (fun {e e'} he => by simp [he.labels.kind]) (h.entries name))
    fun _ _ he => he.labels.text

theorem entityTotal_of_sameEntry {es es' : List Node} (h : List.Forall₂ SameEntry es es') :
    entityTotal es' = entityTotal es := by
  induction h with
  | nil => rfl
  | cons he _ ih => rw [entityTotal, entityTotal, he.entities, ih]

end Node

/-- Classes that declare the same. -/
structure ClassDeclaration.Same (decl decl' : ClassDeclaration) : Prop where
  name : decl'.name = decl.name
  decorated : ∀ name, (findDecorator decl'.decorators name).isSome =
    (findDecorator decl.decorators name).isSome
  configuration : Option.Rel SameConfiguration decl.configuration? decl'.configuration?
  constructorTypes : decl'.constructorTypes = decl.constructorTypes

section Classes

variable {C S : Node → Node → Prop} {decl decl' : ClassDeclaration}

theorem findDecorator_rel {D : Node → Node → Prop} {ds ds' : List Node}
    (h : List.Forall₂ D ds ds') (hD : ∀ d d', D d d' → d'.decoratorName? = d.decoratorName?)
    (name : String) : Option.Rel D (findDecorator ds name) (findDecorator ds' name) :=
  find?_rel h fun d d' hd => by rw [hD d d' hd]

theorem constructorTypes_of_body [KeepsLabels S]
    (hS : ∀ c c', S c c' → c'.parameterType? = c.parameterType?)
    (h : Option.Rel (Alike (Alike (Alike S))) (decl.node.child? .body) (decl'.node.child? .body)) :
    decl'.constructorTypes = decl.constructorTypes := by
  unfold ClassDeclaration.constructorTypes
  rcases rel_cases h with ⟨hb, hb'⟩ | ⟨body, body', hb, hb', halike⟩
  · rw [hb, hb']
  rw [hb, hb']
  dsimp only
  have hmember := halike.namedChildren.find? (fun _ _ hc => hc.isConstructor)
    fun c hc => by simp [isConstructor, hc.1]
  rcases rel_cases (rel_bind hmember fun _ _ hc => hc.child? .parameters) with
    ⟨hp, hp'⟩ | ⟨parameters, parameters', hp, hp', hparameters⟩
  · rw [hp, hp']
  · rw [hp, hp']
    have htypes := hparameters.namedChildren.filterMap (S := Eq) (f := parameterType?)
      (g := parameterType?) (fun c c' hc => by
        rw [hS c c' hc]
        cases c.parameterType? <;> simp)
      fun c hc => by simp [parameterType?, hc.1]
    exact (List.forall₂_eq_eq_eq ▸ htypes).symm

theorem configuration?_rel [KeepsLabels C]
    (h : List.Forall₂ (Alike (Alike (Alike C))) decl.decorators decl'.decorators) :
    Option.Rel (fun c c' => c.kind = .object ∧ C c c') decl.configuration?
      decl'.configuration? := by
  unfold ClassDeclaration.configuration?
  have hfound := findDecorator_rel h (fun _ _ hd => hd.decoratorName?) "Module"
  rcases rel_cases (rel_bind hfound fun _ _ hd => hd.decoratorExpression?) with
    ⟨he, he'⟩ | ⟨expr, expr', he, he', hexpr⟩
  · rw [he, he']
    exact .none
  rw [he, he']
  dsimp only
  rw [hexpr.labels.kind]
  split
  · have hfirst := hexpr.callArguments
    cases hargs : expr.callArguments with
    | nil =>
      rw [hargs, List.forall₂_nil_left_iff] at hfirst
      rw [hfirst]
      exact .none
    | cons first rest =>
      rw [hargs] at hfirst
      obtain ⟨first', rest', hc, -, hargs'⟩ := List.forall₂_cons_left_iff.mp hfirst
      rw [hargs']
      dsimp only
      rw [(KeepsLabels.labels hc).kind]
      split
      · rename_i hobject
        exact .some ⟨hobject, hc⟩
      · exact .none
  · exact .none

theorem ClassDeclaration.same_of_alike [KeepsLabels C]
    (hC : ∀ c c', c.kind = .object → C c c' → SameConfiguration c c')
    (hname : decl'.name = decl.name)
    (hdecorators : List.Forall₂ (Alike (Alike (Alike C))) decl.decorators decl'.decorators)
    (htypes : decl'.constructorTypes = decl.constructorTypes) : decl.Same decl' where
  name := hname
  decorated := fun name =>
    isSome_eq_of_rel (findDecorator_rel hdecorators (fun _ _ hd => hd.decoratorName?) name)
  configuration := by
    rcases rel_cases (configuration?_rel hdecorators) with
      ⟨hc, hc'⟩ | ⟨c, c', hc, hc', hobject, hcc⟩
    · rw [hc, hc']
      exact .none
    · rw [hc, hc']
      exact .some (hC c c' hobject hcc)
  constructorTypes := htypes

theorem ClassDeclaration.Same.moduleName? (h : decl.Same decl') :
    decl'.moduleName? = decl.moduleName? := by
  unfold ClassDeclaration.moduleName?
  rw [h.decorated "Module", h.name]

/-- The classes of a list that could declare its module, each with its name. -/
theorem moduleClasses_rel {classes classes' : List ClassDeclaration}
    (h : List.Forall₂ ClassDeclaration.Same classes classes') :
    List.Forall₂ (fun a b => b.2 = a.2 ∧ a.1.Same b.1)
      (classes.filterMap fun c => c.moduleName?.map (c, ·))
      (classes'.filterMap fun c => c.moduleName?.map (c, ·)) := by
  refine List.rel_filterMap (fun {c c'} hc => ?_) h
  rw [hc.moduleName?]
  cases c.moduleName? with
  | none => exact .none
  | some name => exact .some ⟨rfl, hc⟩

theorem moduleClass?_rel {classes classes' : List ClassDeclaration}
    (h : List.Forall₂ ClassDeclaration.Same classes classes') :
    Option.Rel (fun a b => b.2 = a.2 ∧ a.1.Same b.1) (moduleClass? classes)
      (moduleClass? classes') :=
  find?_rel (moduleClasses_rel h) fun a b hab => by rw [hab.1]

theorem decoyNotices_of_same (file : String) {classes classes' : List ClassDeclaration}
    (h : List.Forall₂ ClassDeclaration.Same classes classes') :
    decoyNotices file classes' = decoyNotices file classes := by
  unfold decoyNotices
  rw [filterMap_eq_of_rel h fun _ _ hc => hc.moduleName?]

end Classes

/-- Trees in which names stand for the same. -/
structure SameSymbols (root root' : Node) : Prop where
  importPath? : ∀ name, root'.importPath? name = root.importPath? name
  class? : ∀ name, Option.Rel ClassDeclaration.Same (root.class? name) (root'.class? name)

variable {root root' : Node}

section Symbols

variable {R : ClassDeclaration → ClassDeclaration → Prop} {name : String}
variable (h : Option.Rel R (root.class? name) (root'.class? name))
include h

theorem constructorDependencies_of_rel
    (hR : ∀ d d', R d d' → d'.constructorTypes = d.constructorTypes) :
    root'.constructorDependencies name = root.constructorDependencies name := by
  unfold Node.constructorDependencies
  rcases rel_cases h with ⟨hd, hd'⟩ | ⟨d, d', hd, hd', hsame⟩
  · rw [hd, hd']
  · rw [hd, hd']
    exact hR d d' hsame

theorem isInjectable_of_rel
    (hR : ∀ d d', R d d' → (findDecorator d'.decorators "Injectable").isSome =
      (findDecorator d.decorators "Injectable").isSome) :
    root'.isInjectable name = root.isInjectable name := by
  unfold Node.isInjectable
  rcases rel_cases h with ⟨hd, hd'⟩ | ⟨d, d', hd, hd', hsame⟩
  · rw [hd, hd']
  · rw [hd, hd']
    exact hR d d' hsame

end Symbols

/-- A provider is read off its own element, with two questions about the classes that it names. -/
theorem provider?_congr
    (hdependencies : ∀ name, root'.constructorDependencies name = root.constructorDependencies name)
    (hinjectable : ∀ name, root'.isInjectable name = root.isInjectable name) (e : Node) :
    provider? root' e = provider? root e := by
  unfold provider? classProvider objectProvider?
  simp only [hdependencies, hinjectable]

theorem SameSymbols.constructorDependencies (h : SameSymbols root root') (name : String) :
    root'.constructorDependencies name = root.constructorDependencies name :=
  constructorDependencies_of_rel (h.class? name) fun _ _ hd => hd.constructorTypes

theorem SameSymbols.isInjectable (h : SameSymbols root root') (name : String) :
    root'.isInjectable name = root.isInjectable name :=
  isInjectable_of_rel (h.class? name) fun _ _ hd => hd.decorated "Injectable"

theorem SameSymbols.provider? (h : SameSymbols root root') (e : Node) :
    provider? root' e = provider? root e :=
  provider?_congr h.constructorDependencies h.isInjectable e

theorem SameSymbols.importRecords (h : SameSymbols root root') {es es' : List Node}
    (hes : List.Forall₂ SameEntry es es') (n : Nat) :
    importRecords root' n es' = importRecords root n es := by
  induction hes generalizing n with
  | nil => rfl
  | cons he _ ih =>
    rw [ModuleGraph.importRecords, ModuleGraph.importRecords, he.target]
    simp only [h.importPath?, ih]

theorem SameSymbols.providers (h : SameSymbols root root') {es es' : List Node}
    (hes : List.Forall₂ SameEntry es es') :
    es'.filterMap (ModuleGraph.provider? root') = es.filterMap (ModuleGraph.provider? root) :=
  filterMap_eq_of_rel hes fun e e' he => by rw [h.provider?, he.provider]

theorem importNotices_of_sameEntry (file : String) {es es' : List Node}
    (hes : List.Forall₂ SameEntry es es') (n : Nat) :
    importNotices file n es' = importNotices file n es := by
  induction hes generalizing n with
  | nil => rfl
  | cons he _ ih =>
    rw [importNotices, importNotices, he.target, he.labels.text]
    simp only [ih]

theorem SameSymbols.providerNotices (h : SameSymbols root root') (file : String)
    {es es' : List Node} (hes : List.Forall₂ SameEntry es es') :
    providerNotices root' file es' = providerNotices root file es :=
  map_list_eq_of_rel
    (List.rel_filter (fun {e e'} he => by simp [h.provider?, he.provider]) hes)
    fun _ _ he => by rw [he.labels.text]

theorem SameSymbols.draftModule (h : SameSymbols root root') {config config' : Option Node}
    (hconfig : Option.Rel SameConfiguration config config') (file name : String) (n : Nat) :
    draftModule root' file name n config' = draftModule root file name n config := by
  cases hconfig with
  | none => rfl
  | some hc =>
    simp only [ModuleGraph.draftModule, h.importRecords (hc.entries "imports"),
      h.providers (hc.entries "providers"), hc.identifierList,
      entityTotal_of_sameEntry (hc.entries "imports")]

theorem SameSymbols.draftNotices (h : SameSymbols root root') {config config' : Option Node}
    (hconfig : Option.Rel SameConfiguration config config') (file : String) (n : Nat) :
    draftNotices root' file n config' = draftNotices root file n config := by
  cases hconfig with
  | none => rfl
  | some hc =>
    simp only [ModuleGraph.draftNotices,
      importNotices_of_sameEntry file (hc.entries "imports"),
      h.providerNotices file (hc.entries "providers")]

/-- Trees from which the same module is read. -/
structure SameModule (root root' : Node) : Prop extends SameSymbols root root' where
  moduleClass? : Option.Rel (fun a b => b.2 = a.2 ∧ a.1.Same b.1)
    (moduleClass? root.topLevelClasses) (moduleClass? root'.topLevelClasses)

namespace FileReader

theorem read_of_sameModule (h : SameModule root root') (file : String) (reader : FileReader) :
    reader.read root' file = { reader.read root file with
      notices := (reader.read root' file).notices } := by
  unfold read
  dsimp only
  rcases rel_cases h.moduleClass? with ⟨hm, hm'⟩ | ⟨⟨d, name⟩, ⟨d', name'⟩, hm, hm', rfl, hsame⟩
  · rw [hm, hm']
  · rw [hm, hm']
    dsimp only
    rw [h.draftModule hsame.configuration]

theorem notices_read_of_sameModule (h : SameModule root root') (file : String)
    (reader : FileReader)
    (hdecoys : decoyNotices file root'.topLevelClasses = decoyNotices file root.topLevelClasses) :
    (reader.read root' file).notices = (reader.read root file).notices := by
  unfold read
  dsimp only
  rw [hdecoys]
  rcases rel_cases h.moduleClass? with ⟨hm, hm'⟩ | ⟨⟨d, name⟩, ⟨d', name'⟩, hm, hm', rfl, hsame⟩
  · rw [hm, hm']
  · rw [hm, hm']
    dsimp only
    rw [h.draftNotices hsame.configuration]

theorem after_of_sameModule (h : SameModule root root') (file : String) (times : Nat)
    (reader : FileReader) : reader.after root' file times = reader.after root file times := by
  induction times generalizing reader with
  | zero => rfl
  | succ times ih => rw [after, after, ih, read_of_sameModule h]

theorem places_outcomes_of_sameModule (h : SameModule root root') (file : String) (times : Nat)
    (reader : FileReader) :
    (reader.outcomes root' file times).map (·.place) =
      (reader.outcomes root file times).map (·.place) := by
  induction times generalizing reader with
  | zero => rfl
  | succ times ih =>
    have hread := read_of_sameModule h file reader
    rw [outcomes, outcomes, List.map_cons, List.map_cons, congrArg Outcome.place hread,
      congrArg Outcome.reader hread, ih]

theorem outcomes_of_sameModule (h : SameModule root root') (file : String) (times : Nat)
    (reader : FileReader)
    (hdecoys : decoyNotices file root'.topLevelClasses = decoyNotices file root.topLevelClasses) :
    reader.outcomes root' file times = reader.outcomes root file times := by
  induction times generalizing reader with
  | zero => rfl
  | succ times ih =>
    have hread : reader.read root' file = reader.read root file := by
      rw [read_of_sameModule h, notices_read_of_sameModule h file reader hdecoys]
    rw [outcomes, outcomes, hread, ih]

end FileReader

/-- All readings with one reader return the same modules. -/
theorem SameModule.fst_rereadModules (h : SameModule root root') (file : String) (times : Nat)
    (reader : FileReader) :
    (rereadModules root' file times reader).1 = (rereadModules root file times reader).1 := by
  have hplaces := FileReader.places_outcomes_of_sameModule h file times reader
  unfold rereadModules
  dsimp only
  rw [FileReader.after_of_sameModule h]
  simpa only [List.map_map, Function.comp_def] using
    congrArg (List.map fun place => place.bind (reader.after root file times).module?) hplaces

theorem SameModule.rereadModules (h : SameModule root root') (file : String) (times : Nat)
    (reader : FileReader)
    (hdecoys : decoyNotices file root'.topLevelClasses = decoyNotices file root.topLevelClasses) :
    rereadModules root' file times reader = rereadModules root file times reader := by
  unfold ModuleGraph.rereadModules
  rw [FileReader.outcomes_of_sameModule h file times reader hdecoys,
    FileReader.after_of_sameModule h]

end ModuleGraph
