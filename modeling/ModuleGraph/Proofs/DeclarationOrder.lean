import ModuleGraph.Proofs.AlikeReadings

/-! The order of declarations does not matter where names are distinct. The statements of a file
and the pairs of the object literals that describe its module and its providers can be put in any
order as long as every look-up among them has one answer. -/

namespace ModuleGraph

open Node

theorem eq_of_perm_of_length_le_one {α : Type} {xs ys : List α} (h : xs.Perm ys)
    (hlength : xs.length ≤ 1) : xs = ys := by
  cases xs with
  | nil => exact h.nil_eq
  | cons x rest =>
    cases rest with
    | nil => exact (List.perm_singleton.mp h.symm).symm
    | cons _ _ => simp at hlength

/-- A search that can find only one element finds it in every order. -/
theorem find?_rel_of_perm {α β : Type} {R : α → β → Prop} {xs : List α} {mid ys : List β}
    {p : α → Bool} {q : β → Bool} (h : List.Forall₂ R (xs.filter p) (mid.filter q))
    (hperm : mid.Perm ys) (hcount : xs.countP p ≤ 1) :
    Option.Rel R (xs.find? p) (ys.find? q) := by
  have hlength : (mid.filter q).length ≤ 1 := by
    rw [← h.length_eq, ← List.countP_eq_length_filter]
    exact hcount
  have hsame : mid.filter q = ys.filter q :=
    eq_of_perm_of_length_le_one (hperm.filter q) hlength
  rw [← List.head?_filter, ← List.head?_filter, ← hsame]
  exact head?_rel h

namespace Node

/-- The same node with children that correspond in some order. -/
structure Reordered (R : Node → Node → Prop) (n n' : Node) : Prop where
  labels : SameLabels n n'
  children : ∃ cs, Trimmed R n.children cs ∧ cs.Perm n'.children

/-- No two pairs of an object literal have the same plain key. -/
def DistinctKeys (o : Node) : Prop :=
  ∀ name, o.namedChildren.countP (isPairFor name) ≤ 1

/-- An element of a list of providers, with its pairs in another order if it is an object. -/
def ProviderReordered (n n' : Node) : Prop :=
  n' = n ∨ n.kind = .object ∧ n.DistinctKeys ∧ Reordered Eq n n'

/-- An argument of a decorator. If it is an object, its pairs may stand in another order, and so
may the pairs of the objects in its arrays. -/
def ConfigurationReordered (n n' : Node) : Prop :=
  n' = n ∨ n.kind = .object ∧ n.DistinctKeys ∧ Reordered (Alike (Alike ProviderReordered)) n n'

/-- A decorator with a call whose arguments are reordered. -/
def DecoratorReordered : Node → Node → Prop := Alike (Alike (Alike ConfigurationReordered))

/-- A child of an `export` statement: a decorator or the class that is exported. -/
def ExportReordered (c c' : Node) : Prop :=
  (c.kind = .decorator → DecoratorReordered c c') ∧
    (c.kind ≠ .decorator → Alike DecoratorReordered c c')

/-- A statement whose class has reordered decorators. -/
inductive StatementReordered : Node → Node → Prop
  | same (s : Node) : StatementReordered s s
  | decl {s s' : Node} : s.isClass = true → Alike DecoratorReordered s s' → StatementReordered s s'
  | exported {s s' : Node} : s.kind = .exportStatement → Alike ExportReordered s s' →
      StatementReordered s s'

/-- Every look-up among the statements of a file has at most one answer. -/
structure DeclaresOnce (root : Node) : Prop where
  imports : ∀ name, root.namedChildren.countP (·.imports name) ≤ 1
  classes : ∀ name, root.topLevelClasses.countP (fun c => c.name = some name) ≤ 1
  module : (root.topLevelClasses.filterMap (·.moduleName?)).countP (fun name => !isDecoy name) ≤ 1

variable {R S : Node → Node → Prop} {n n' root root' : Node}

theorem SameLabels.refl (n : Node) : SameLabels n n := ⟨rfl, rfl, rfl, rfl⟩

theorem Trimmed.refl (hR : ∀ c, R c c) (cs : List Node) : Trimmed R cs cs := by
  induction cs with
  | nil => exact .nil
  | cons c cs ih => exact .keep (hR c) ih

theorem Alike.refl (hR : ∀ c, R c c) (n : Node) : Alike R n n :=
  ⟨.refl n, .refl hR n.children⟩

theorem Reordered.mono (h : Reordered R n n') (hRS : ∀ c c', R c c' → S c c') :
    Reordered S n n' := by
  obtain ⟨cs, htrimmed, hperm⟩ := h.children
  exact ⟨h.labels, cs, htrimmed.mono hRS, hperm⟩

instance : KeepsLabels ProviderReordered where
  labels := by
    rintro n n' (rfl | ⟨-, -, h⟩)
    · exact .refl _
    · exact h.labels

instance : KeepsLabels ConfigurationReordered where
  labels := by
    rintro n n' (rfl | ⟨-, -, h⟩)
    · exact .refl _
    · exact h.labels

instance : KeepsLabels DecoratorReordered := ⟨Alike.labels⟩

instance : KeepsLabels ExportReordered where
  labels := by
    intro n n' h
    by_cases hkind : n.kind = .decorator
    · exact (h.1 hkind).labels
    · exact (h.2 hkind).labels

instance : KeepsLabels StatementReordered where
  labels := by
    intro n n' h
    cases h with
    | same => exact .refl _
    | decl _ h => exact h.labels
    | exported _ h => exact h.labels

theorem Reordered.find? [KeepsLabels R] (h : Reordered R n n') {p : Node → Bool}
    (hp : ∀ c c', R c c' → p c' = p c) (hasides : ∀ c, c.IsAside → p c = false)
    (hcount : n.namedChildren.countP p ≤ 1) :
    Option.Rel R (n.namedChildren.find? p) (n'.namedChildren.find? p) := by
  obtain ⟨cs, htrimmed, hperm⟩ := h.children
  exact find?_rel_of_perm (htrimmed.named.forall₂_filter hp hasides) (hperm.filter _) hcount

/-- With distinct keys the order of pairs does not matter. -/
theorem Reordered.sameProperties [KeepsLabels R] (h : Reordered (Alike R) n n')
    (hkeys : n.DistinctKeys) : SameProperties R n n' := fun name =>
  rel_bind (h.find? (fun _ _ hc => hc.isPairFor name) (fun _ hc => isPairFor_aside hc name)
    (hkeys name)) fun _ _ hc => hc.child? .value

theorem SameEntry.refl (n : Node) : SameEntry n n := ⟨.refl n, rfl, rfl, fun _ => rfl⟩

theorem ProviderReordered.sameEntry (h : ProviderReordered n n') : SameEntry n n' := by
  rcases h with rfl | ⟨hobject, hkeys, hreordered⟩
  · exact .refl _
  have hobject' : n'.kind = .object := hreordered.labels.kind.trans hobject
  have hproperties : SameProperties (Alike SameLabels) n n' := by
    refine (hreordered.mono fun c c' hc => ?_).sameProperties hkeys
    subst hc
    exact .refl (.refl SameLabels.refl) c
  refine ⟨hreordered.labels, ?_, ?_, fun root => ?_⟩
  · simp [importTarget?, hobject, hobject']
  · simp [entityCount, hobject, hobject']
  · rw [ModuleGraph.provider?, ModuleGraph.provider?, hobject, hobject']
    exact objectProvider?_of_sameProperties hproperties

theorem rel_refl {α : Type} {R : α → α → Prop} (hR : ∀ a, R a a) (a : Option α) :
    Option.Rel R a a := by
  cases a with
  | none => exact .none
  | some a => exact .some (hR a)

theorem SameConfiguration.refl (n : Node) : SameConfiguration n n := fun name =>
  rel_refl (fun _ => List.forall₂_same.mpr fun e _ => SameEntry.refl e) (n.arrayProperty? name)

theorem ConfigurationReordered.sameConfiguration (h : ConfigurationReordered n n') :
    SameConfiguration n n' := by
  rcases h with rfl | ⟨-, hkeys, hreordered⟩
  · exact .refl _
  intro name
  rcases rel_cases ((hreordered.sameProperties hkeys).arrayProperty? name) with
    ⟨ha, ha'⟩ | ⟨es, es', ha, ha', hes⟩
  · rw [ha, ha']
    exact .none
  · rw [ha, ha']
    exact .some (hes.imp fun _ _ he => he.sameEntry)

theorem same_refl (decl : ClassDeclaration) : decl.Same decl where
  name := rfl
  decorated := fun _ => rfl
  configuration := rel_refl SameConfiguration.refl _
  constructorTypes := rfl

theorem ConfigurationReordered.parameterType? (h : ConfigurationReordered n n') :
    n'.parameterType? = n.parameterType? := by
  rcases h with rfl | ⟨hobject, -, hreordered⟩
  · rfl
  · simp [Node.parameterType?, hreordered.labels.kind, hobject]

theorem same_asClass (h : Alike DecoratorReordered n n') {outer outer' : List Node}
    (houter : List.Forall₂ DecoratorReordered outer outer') :
    (n.asClass outer).Same (n'.asClass outer') := by
  have hdecorators : List.Forall₂ (Alike (Alike (Alike ConfigurationReordered)))
      (outer ++ n.decorators) (outer' ++ n'.decorators) := List.rel_append houter h.decorators
  have htypes : (n'.asClass outer').constructorTypes = (n.asClass outer).constructorTypes :=
    constructorTypes_of_body (S := ConfigurationReordered) (fun _ _ hc => hc.parameterType?)
      (h.child? .body)
  exact ClassDeclaration.same_of_alike (fun _ _ _ hc => hc.sameConfiguration)
    (h.childText .name) hdecorators htypes

theorem StatementReordered.declaredClass? (h : StatementReordered n n') :
    Option.Rel ClassDeclaration.Same n.declaredClass? n'.declaredClass? := by
  have hclass : ∀ {c c' : Node}, SameLabels c c' → c'.isClass = c.isClass := fun h => by
    rw [isClass, isClass, h.kind]
  cases h with
  | same => exact rel_refl same_refl _
  | decl hdecl h =>
    rw [Node.declaredClass?, Node.declaredClass?, hclass h.labels, if_pos hdecl, if_pos hdecl]
    exact .some (same_asClass h .nil)
  | exported hkind h =>
    have hnone : n.isClass = false := by simp [isClass, hkind]
    have hdecorators : List.Forall₂ DecoratorReordered n.decorators n'.decorators := by
      have hmem : ∀ d ∈ n.decorators, d.kind = .decorator := fun d hd => by
        simpa using (List.mem_filter.mp hd).2
      have hboth := (List.forall₂_and_left _ _).mpr ⟨hmem, h.decorators⟩
      exact hboth.imp fun d d' hd => hd.2.1 hd.1
    rw [Node.declaredClass?, Node.declaredClass?, hclass h.labels, h.labels.kind, hnone, hkind]
    simp only [Bool.false_eq_true, if_false, if_true]
    rcases rel_cases (h.child? .declaration) with ⟨hd, hd'⟩ | ⟨d, d', hd, hd', hdd⟩
    · rw [hd, hd']
      exact .none
    · rw [hd, hd']
      dsimp only
      rw [hclass (KeepsLabels.labels hdd)]
      split
      · rename_i hdecl
        have hkind : d.kind ≠ .decorator := by
          intro hkind
          simp [isClass, hkind] at hdecl
        exact .some (same_asClass (hdd.2 hkind) hdecorators)
      · exact .none

theorem StatementReordered.eq_of_import (h : StatementReordered n n')
    (hkind : n.kind = .importStatement) : n' = n := by
  cases h with
  | same => rfl
  | decl hdecl => simp [isClass, hkind] at hdecl
  | exported hexport => simp [hkind] at hexport

theorem StatementReordered.imports (h : StatementReordered n n') (name : String) :
    n'.imports name = n.imports name := by
  by_cases hkind : n.kind = .importStatement
  · rw [h.eq_of_import hkind]
  · have hkind' : n'.kind ≠ .importStatement := (KeepsLabels.labels h).kind ▸ hkind
    simp [Node.imports, hkind, hkind']

theorem Reordered.importPath? (h : Reordered StatementReordered root root')
    (honce : root.DeclaresOnce) (name : String) :
    root'.importPath? name = root.importPath? name := by
  have hfound := h.find? (fun _ _ hs => hs.imports name)
    (fun c hc => by simp [Node.imports, hc.1]) (honce.imports name)
  unfold Node.importPath?
  rcases rel_cases hfound with ⟨hs, hs'⟩ | ⟨s, s', hs, hs', hss⟩
  · rw [hs, hs']
  · have himports : s.imports name = true := by simpa using List.find?_some hs
    have hkind : s.kind = .importStatement := by
      rw [Node.imports, Bool.and_eq_true] at himports
      simpa using himports.1
    rw [hs, hs', hss.eq_of_import hkind]

theorem Reordered.topLevelClasses (h : Reordered StatementReordered root root') :
    ∃ classes, List.Forall₂ ClassDeclaration.Same root.topLevelClasses classes ∧
      classes.Perm root'.topLevelClasses := by
  obtain ⟨cs, htrimmed, hperm⟩ := h.children
  refine ⟨(cs.filter (·.named)).filterMap Node.declaredClass?, ?_, ?_⟩
  · exact htrimmed.named.filterMap (fun _ _ hs => hs.declaredClass?)
      fun c hc => by simp [Node.declaredClass?, isClass, hc.1]
  · exact (hperm.filter _).filterMap _

theorem Reordered.class? (h : Reordered StatementReordered root root')
    (honce : root.DeclaresOnce) (name : String) :
    Option.Rel ClassDeclaration.Same (root.class? name) (root'.class? name) := by
  obtain ⟨classes, hsame, hperm⟩ := h.topLevelClasses
  exact find?_rel_of_perm (List.rel_filter (fun {c c'} hc => by simp [hc.name]) hsame) hperm
    (honce.classes name)

theorem Reordered.moduleClass? (h : Reordered StatementReordered root root')
    (honce : root.DeclaresOnce) :
    Option.Rel (fun a b => b.2 = a.2 ∧ a.1.Same b.1) (moduleClass? root.topLevelClasses)
      (moduleClass? root'.topLevelClasses) := by
  obtain ⟨classes, hsame, hperm⟩ := h.topLevelClasses
  refine find?_rel_of_perm
    (List.rel_filter (fun {a b} hab => by simp [hab.1]) (moduleClasses_rel hsame))
    (hperm.filterMap _) ?_
  have hnames : root.topLevelClasses.filterMap (·.moduleName?) =
      (root.topLevelClasses.filterMap fun c => c.moduleName?.map (c, ·)).map Prod.snd := by
    rw [List.map_filterMap]
    refine List.filterMap_congr fun c _ => ?_
    cases c.moduleName? <;> rfl
  have hcount := honce.module
  rw [hnames, List.countP_map] at hcount
  exact hcount

/-- Where no name is imported twice, no two classes have one name, at most one class declares the
module and no object literal that is reordered has a plain key twice, the order of statements, of
the pairs of a configuration and of the pairs of its providers does not matter: every reading
returns the same module, with the same numbers in made-up names, and goes on in the same way. -/
theorem DeclaresOnce.readings_reordered (honce : root.DeclaresOnce)
    (h : Reordered StatementReordered root root') (file : String) (reader : FileReader) :
    (reader.read root' file).module = (reader.read root file).module ∧
      (reader.read root' file).reader = (reader.read root file).reader ∧
      ∀ times, (rereadModules root' file times reader).1 =
        (rereadModules root file times reader).1 := by
  have hmodule : SameModule root root' :=
    ⟨⟨h.importPath? honce, h.class? honce⟩, h.moduleClass? honce⟩
  have hread := FileReader.read_of_sameModule hmodule file reader
  exact ⟨by rw [hread]; rfl, by rw [hread], fun times =>
    hmodule.fst_rereadModules file times reader⟩

def word (name : String) : Node := ⟨.identifier, none, true, name, []⟩

def pairOf (entry : String × Node) : Node :=
  ⟨.pair, none, true, entry.1,
    [⟨.propertyIdentifier, some .key, true, entry.1, []⟩, entry.2.inRole .value]⟩

def objectOf (entries : List (String × Node)) : Node :=
  ⟨.object, none, true, "object", entries.map pairOf⟩

def arrayOf (elements : List Node) : Node := ⟨.array, none, true, "array", elements⟩

/-- The decorator `@Module(…)`. -/
def moduleDecorator (config : Node) : Node :=
  ⟨.decorator, none, true, "decorator", [⟨.callExpression, none, true, "call",
    [(word "Module").inRole .function,
      ⟨.other "arguments", some .arguments, true, "arguments", [config]⟩]⟩]⟩

def classOf (name : String) (decorators : List Node) : Node :=
  ⟨.classDeclaration, none, true, "class",
    ⟨.typeIdentifier, some .name, true, name, []⟩ :: decorators⟩

theorem isPairFor_pairOf (name : String) (entry : String × Node) :
    (pairOf entry).isPairFor name = decide (entry.1 = name) := by
  simp [Node.isPairFor, pairOf, child?]

theorem distinctKeys_objectOf {entries : List (String × Node)}
    (h : (entries.map Prod.fst).Nodup) : (objectOf entries).DistinctKeys := by
  intro name
  have hnamed : (objectOf entries).namedChildren = entries.map pairOf := by
    simp [namedChildren, objectOf, List.filter_map, Function.comp_def, pairOf]
  have hcount : (entries.map pairOf).countP (isPairFor name) =
      (entries.map Prod.fst).count name := by
    rw [List.countP_map, List.count, List.countP_map]
    refine List.countP_congr fun e _ => ?_
    simp [isPairFor_pairOf]
  rw [hnamed, hcount]
  exact List.nodup_iff_count.mp h name

theorem reordered_objectOf {entries between entries' : List (String × Node)}
    (h : Trimmed R (entries.map pairOf) (between.map pairOf)) (hperm : between.Perm entries') :
    Reordered R (objectOf entries) (objectOf entries') :=
  ⟨⟨rfl, rfl, rfl, rfl⟩, between.map pairOf, h, hperm.map pairOf⟩

theorem alike_pairOf (hR : ∀ c, R c c) {key : String} {value value' : Node}
    (h : R (value.inRole .value) (value'.inRole .value)) :
    Alike R (pairOf (key, value)) (pairOf (key, value')) :=
  ⟨⟨rfl, rfl, rfl, rfl⟩, .keep (hR _) (.keep h .nil)⟩

theorem decoratorReordered_moduleDecorator {config config' : Node}
    (h : ConfigurationReordered config config') :
    DecoratorReordered (moduleDecorator config) (moduleDecorator config') := by
  have hlabels : ∀ {kind field named text children children'},
      SameLabels ⟨kind, field, named, text, children⟩ ⟨kind, field, named, text, children'⟩ :=
    ⟨rfl, rfl, rfl, rfl⟩
  have hword : Alike ConfigurationReordered ((word "Module").inRole .function)
      ((word "Module").inRole .function) := .refl (fun _ => .inl rfl) _
  exact ⟨hlabels, .keep ⟨hlabels, .keep hword (.keep ⟨hlabels, .keep h .nil⟩ .nil)⟩ .nil⟩

/-- A list, or its reverse. -/
def inOrder {α : Type} (backwards : Bool) (xs : List α) : List α :=
  if backwards then xs.reverse else xs

def tokenProvider (backwards : Bool) : Node :=
  objectOf (inOrder backwards
    [("provide", ⟨.string, none, true, "'T'", []⟩), ("useClass", word "C")])

def configuration (backwards : Bool) : Node :=
  objectOf (inOrder backwards
    [("providers", arrayOf [tokenProvider backwards]),
      ("imports", arrayOf [word "A", ⟨.other "number", none, true, "7", []⟩])])

/-- An import of `A`, a class `C` and the module `M`, which lists the token `'T'`. -/
def declarations (backwards : Bool) : Node :=
  ⟨.other "program", none, true, "program", inOrder backwards
    [⟨.importStatement, none, true, "import",
        [⟨.importClause, none, true, "A", [word "A"]⟩, ⟨.string, some .source, true, "'./a'", []⟩]⟩,
      classOf "C" [], classOf "M" [moduleDecorator (configuration backwards)]]⟩

theorem configurationReordered_configuration :
    ConfigurationReordered (configuration false) (configuration true) := by
  have hrefl : ∀ c, ProviderReordered c c := fun _ => .inl rfl
  have hprovider : ProviderReordered (tokenProvider false) (tokenProvider true) :=
    .inr ⟨rfl, distinctKeys_objectOf (by decide),
      reordered_objectOf (.refl (fun _ => rfl) _) (List.reverse_perm _).symm⟩
  have harray : Alike ProviderReordered ((arrayOf [tokenProvider false]).inRole .value)
      ((arrayOf [tokenProvider true]).inRole .value) :=
    ⟨⟨rfl, rfl, rfl, rfl⟩, .keep hprovider .nil⟩
  have hpairs : Trimmed (Alike (Alike ProviderReordered))
      ([("providers", arrayOf [tokenProvider false]),
        ("imports", arrayOf [word "A", ⟨.other "number", none, true, "7", []⟩])].map pairOf)
      ([("providers", arrayOf [tokenProvider true]),
        ("imports", arrayOf [word "A", ⟨.other "number", none, true, "7", []⟩])].map pairOf) :=
    .keep (alike_pairOf (Alike.refl hrefl) harray) (.refl (Alike.refl (Alike.refl hrefl)) _)
  exact .inr ⟨rfl, distinctKeys_objectOf (by decide),
    reordered_objectOf hpairs (List.reverse_perm _).symm⟩

theorem reordered_declarations :
    Reordered StatementReordered (declarations false) (declarations true) := by
  have hdecorator := decoratorReordered_moduleDecorator configurationReordered_configuration
  have hrefl : ∀ c, DecoratorReordered c c :=
    Alike.refl (Alike.refl (Alike.refl fun _ => .inl rfl))
  have hmodule : StatementReordered (classOf "M" [moduleDecorator (configuration false)])
      (classOf "M" [moduleDecorator (configuration true)]) :=
    .decl rfl ⟨⟨rfl, rfl, rfl, rfl⟩, .keep (hrefl _) (.keep hdecorator .nil)⟩
  exact ⟨⟨rfl, rfl, rfl, rfl⟩, _, .keep (.same _) (.keep (.same _) (.keep hmodule .nil)),
    (List.reverse_perm _).symm⟩

theorem declaresOnce_declarations : (declarations false).DeclaresOnce where
  imports := by
    intro name
    have hothers : ∀ c ∈ (declarations false).namedChildren.drop 1, c.imports name = false := by
      simp [declarations, inOrder, namedChildren, classOf, Node.imports]
    show List.countP _ (_ :: (declarations false).namedChildren.drop 1) ≤ 1
    rw [List.countP_cons, List.countP_eq_zero.mpr (by simpa using hothers)]
    split <;> omega
  classes := by
    intro name
    show List.countP _ ((declarations false).topLevelClasses) ≤ 1
    have hnames : (declarations false).topLevelClasses.map (·.name) = [some "C", some "M"] := rfl
    have hcount : (declarations false).topLevelClasses.countP (fun c => c.name = some name) =
        [some "C", some "M"].count (some name) := by
      rw [← hnames, List.count, List.countP_map]
      refine List.countP_congr fun c _ => ?_
      simp
    rw [hcount]
    exact List.nodup_iff_count.mp (by decide) (some name)
  module := by decide +kernel

theorem readings_declarations :
    Reordered StatementReordered (declarations false) (declarations true) ∧
    (declarations false).DeclaresOnce ∧
    (rereadModules (declarations true) "m.ts" 2 {}).1.map
        (Option.map fun m => (m.name, m.imports.map fun i => (i.name, i.path),
          m.providers.map fun p => (p.name, p.useClass))) =
      [some ("M", [("A", some "./a"), ("UnknownModule_1", none)], [("T", some "C")]),
        some ("M", [("A", some "./a"), ("UnknownModule_2", none)], [("T", some "C")])] := by
  refine ⟨reordered_declarations, declaresOnce_declarations, ?_⟩
  obtain ⟨-, -, hread⟩ :=
    declaresOnce_declarations.readings_reordered reordered_declarations "m.ts" {}
  rw [hread 2]
  rfl

end Node

end ModuleGraph
