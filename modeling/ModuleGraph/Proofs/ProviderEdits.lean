import ModuleGraph.Proofs.AlikeReadings

/-! Trees that differ in what their providers arrays list. Such an edit changes the text of every
node around the array, but no name of a class, no name of a decorator and no constructor. A
provider is read off its own element with the help of these, so it stays as it is when other
elements come, go or move. -/

namespace ModuleGraph

namespace Node

/-- Nodes that play the same role in their parents. Their texts and children may differ. -/
structure SameRole (n n' : Node) : Prop where
  kind : n'.kind = n.kind
  field : n'.field = n.field
  named : n'.named = n.named

/-- The same node around children that correspond one by one. -/
structure Around (R : Node → Node → Prop) (n n' : Node) : Prop where
  role : SameRole n n'
  children : List.Forall₂ R n.children n'.children

/-- The same node, or one with the property `p` whose children are edited. -/
def Edited (p : Node → Prop) (R : Node → Node → Prop) (n n' : Node) : Prop :=
  n' = n ∨ p n ∧ Around R n n'

/-- The same node, or an array that lists other elements. -/
def Relisted (n n' : Node) : Prop :=
  n' = n ∨ n.kind = .array ∧ SameRole n n'

def EditedPair : Node → Node → Prop := Edited (fun n => n.isPairFor "providers" = true) Relisted

def EditedConfiguration : Node → Node → Prop := Edited (fun n => n.kind = .object) EditedPair

def EditedArguments : Node → Node → Prop :=
  Edited (fun n => n.field = some .arguments) EditedConfiguration

def EditedCall : Node → Node → Prop := Edited (fun n => n.kind = .callExpression) EditedArguments

def EditedDecorator : Node → Node → Prop :=
  Edited (fun n => n.kind = .decorator ∧ n.field = none) EditedCall

def EditedClass : Node → Node → Prop := Edited (fun n => n.isClass = true) EditedDecorator

/-- A part of an `export` statement: a decorator, or the class that is exported. -/
def EditedExport (n n' : Node) : Prop := EditedDecorator n n' ∨ EditedClass n n'

def EditedStatement (n n' : Node) : Prop :=
  EditedClass n n' ∨ Edited (fun n => n.kind = .exportStatement) EditedExport n n'

/-- Trees that differ in what the providers arrays of their decorated classes list, and in the
texts of the nodes around these arrays. -/
def ProvidersEdited : Node → Node → Prop := Around EditedStatement

/-- A relation that every node bears to itself, and to nodes of the same role only. -/
class IsEdit (R : Node → Node → Prop) : Prop where
  refl (n : Node) : R n n
  role {n n' : Node} : R n n' → SameRole n n'

variable {p : Node → Prop} {R S : Node → Node → Prop} {n n' : Node}

theorem SameRole.refl (n : Node) : SameRole n n := ⟨rfl, rfl, rfl⟩

instance : IsEdit Relisted where
  refl _ := .inl rfl
  role := by
    rintro n n' (rfl | ⟨-, h⟩)
    · exact .refl _
    · exact h

instance : IsEdit (Edited p R) where
  refl _ := .inl rfl
  role := by
    rintro n n' (rfl | ⟨-, h⟩)
    · exact .refl _
    · exact h.role

instance : IsEdit EditedPair := inferInstanceAs (IsEdit (Edited _ _))

instance : IsEdit EditedConfiguration := inferInstanceAs (IsEdit (Edited _ _))

instance : IsEdit EditedArguments := inferInstanceAs (IsEdit (Edited _ _))

instance : IsEdit EditedCall := inferInstanceAs (IsEdit (Edited _ _))

instance : IsEdit EditedDecorator := inferInstanceAs (IsEdit (Edited _ _))

instance : IsEdit EditedClass := inferInstanceAs (IsEdit (Edited _ _))

instance : IsEdit EditedExport where
  refl n := .inl (IsEdit.refl n)
  role := by
    rintro n n' (h | h)
    · exact IsEdit.role h
    · exact IsEdit.role h

instance : IsEdit EditedStatement where
  refl n := .inl (IsEdit.refl n)
  role := by
    rintro n n' (h | h)
    · exact IsEdit.role h
    · exact IsEdit.role h

theorem Edited.eq_of_not (h : Edited p R n n') (hp : ¬ p n) : n' = n := by
  rcases h with rfl | ⟨hn, -⟩
  · rfl
  · exact absurd hn hp

theorem Around.refl [IsEdit R] (n : Node) : Around R n n :=
  ⟨.refl n, List.forall₂_same.mpr fun c _ => IsEdit.refl c⟩

theorem Edited.around [IsEdit R] (h : Edited p R n n') : Around R n n' := by
  rcases h with rfl | ⟨-, h⟩
  · exact .refl _
  · exact h

section Around

variable [IsEdit R] (h : Around R n n')
include h

theorem Around.child? (f : Field) : Option.Rel R (n.child? f) (n'.child? f) :=
  find?_rel h.children fun c c' hc => by rw [(IsEdit.role hc).field]

/-- A child in a role that is not edited is the same. -/
theorem Around.child?_eq {f : Field} (hR : ∀ c c', R c c' → c.field = some f → c' = c) :
    n'.child? f = n.child? f := by
  rcases rel_cases (h.child? f) with ⟨hc, hc'⟩ | ⟨c, c', hc, hc', hcc⟩
  · rw [hc, hc']
  · have hfield : c.field = some f := by simpa using List.find?_some hc
    rw [hc, hc', hR c c' hcc hfield]

theorem Around.namedChildren : List.Forall₂ R n.namedChildren n'.namedChildren :=
  List.rel_filter (fun {c c'} hc => by simp [(IsEdit.role hc).named]) h.children

theorem Around.elements : List.Forall₂ R n.elements n'.elements :=
  List.rel_filter (fun {c c'} hc => by simp [(IsEdit.role hc).kind]) h.namedChildren

theorem Around.decorators : List.Forall₂ R n.decorators n'.decorators :=
  List.rel_filter (fun {c c'} hc => by simp [(IsEdit.role hc).kind]) h.children

end Around

theorem EditedDecorator.eq_of_field {f : Field} (h : EditedDecorator n n')
    (hfield : n.field = some f) : n' = n :=
  h.eq_of_not fun hn => by simp [hfield] at hn

theorem EditedDecorator.decoratorName? (h : EditedDecorator n n') :
    n'.decoratorName? = n.decoratorName? := by
  have helements := (Edited.around h).elements
  unfold Node.decoratorName? Node.decoratorExpression?
  rcases rel_cases (head?_rel helements) with ⟨he, he'⟩ | ⟨e, e', he, he', hcall⟩
  · rw [he, he']
  rw [he, he']
  dsimp only
  have hkind := (IsEdit.role hcall).kind
  rcases hcall with rfl | ⟨hcall, haround⟩
  · rfl
  have hfunction : e'.child? .function = e.child? .function :=
    haround.child?_eq fun c c' hc hfield => hc.eq_of_not (by simp [hfield])
  rw [hkind, if_pos hcall, if_pos hcall, hfunction]

end Node

open Node

/-- Classes with the same name, decorators of the same names and the same constructor types. -/
structure ClassDeclaration.SameOutline (decl decl' : ClassDeclaration) : Prop where
  name : decl'.name = decl.name
  decorated : ∀ name, (findDecorator decl'.decorators name).isSome =
    (findDecorator decl.decorators name).isSome
  constructorTypes : decl'.constructorTypes = decl.constructorTypes

section Classes

variable {n n' root root' : Node}

theorem sameOutline_asClass (h : EditedClass n n') {outer outer' : List Node}
    (houter : List.Forall₂ EditedDecorator outer outer') :
    (n.asClass outer).SameOutline (n'.asClass outer') := by
  have haround := Edited.around h
  have hsame : ∀ f, n'.child? f = n.child? f := fun f =>
    haround.child?_eq fun c c' hc hfield => hc.eq_of_field hfield
  have hdecorators : List.Forall₂ EditedDecorator (outer ++ n.decorators)
      (outer' ++ n'.decorators) := List.rel_append houter haround.decorators
  refine ⟨?_, fun name => ?_, ?_⟩
  · simp [asClass, hsame]
  · exact isSome_eq_of_rel (findDecorator_rel hdecorators (fun _ _ hd => hd.decoratorName?) name)
  · simp [ClassDeclaration.constructorTypes, asClass, hsame]

theorem Node.EditedStatement.declaredClass? (h : EditedStatement n n') :
    Option.Rel ClassDeclaration.SameOutline n.declaredClass? n'.declaredClass? := by
  have hclass : ∀ {c c' : Node}, SameRole c c' → c'.isClass = c.isClass := fun hrole => by
    rw [isClass, isClass, hrole.kind]
  unfold Node.declaredClass?
  rw [hclass (IsEdit.role h), (IsEdit.role h).kind]
  split
  · rename_i hdecl
    refine .some (sameOutline_asClass ?_ .nil)
    rcases h with h | h
    · exact h
    · exact .inl (h.eq_of_not fun hexport => by simp [isClass, hexport] at hdecl)
  · rename_i hdecl
    split
    · rename_i hexport
      -- The class of an `export` statement stands below it, beside the decorators of the statement.
      have haround : Around EditedExport n n' := by
        rcases h with h | h
        · obtain rfl := h.eq_of_not hdecl
          exact .refl _
        · exact h.around
      have hdecorators : List.Forall₂ EditedDecorator n.decorators n'.decorators := by
        have hmem : ∀ d ∈ n.decorators, d.kind = .decorator := fun d hd => by
          simpa using (List.mem_filter.mp hd).2
        refine ((List.forall₂_and_left _ _).mpr ⟨hmem, haround.decorators⟩).imp ?_
        rintro d d' ⟨hkind, h | h⟩
        · exact h
        · exact .inl (h.eq_of_not fun hclass => by simp [isClass, hkind] at hclass)
      rcases rel_cases (haround.child? .declaration) with ⟨hd, hd'⟩ | ⟨d, d', hd, hd', hdd⟩
      · rw [hd, hd']
        exact .none
      · rw [hd, hd']
        dsimp only
        rw [hclass (IsEdit.role hdd)]
        split
        · have hfield : d.field = some .declaration := by simpa using List.find?_some hd
          refine .some (sameOutline_asClass ?_ hdecorators)
          rcases hdd with h | h
          · exact .inl (h.eq_of_field hfield)
          · exact h
        · exact .none
    · exact .none

theorem Node.ProvidersEdited.class? (h : ProvidersEdited root root') (name : String) :
    Option.Rel ClassDeclaration.SameOutline (root.class? name) (root'.class? name) := by
  have hclasses : List.Forall₂ ClassDeclaration.SameOutline root.topLevelClasses
      root'.topLevelClasses :=
    List.rel_filterMap (fun {_ _} hs => hs.declaredClass?) h.namedChildren
  exact find?_rel hclasses fun c c' hc => by rw [hc.name]

theorem Node.ProvidersEdited.provider? (h : ProvidersEdited root root') (e : Node) :
    provider? root' e = provider? root e :=
  provider?_congr
    (fun name => constructorDependencies_of_rel (h.class? name) fun _ _ hd => hd.constructorTypes)
    (fun name => isInjectable_of_rel (h.class? name) fun _ _ hd => hd.decorated "Injectable") e

end Classes

end ModuleGraph
