import ModuleGraph.Proofs.Comments
import ModuleGraph.Proofs.EditedList

/-! What the constructor of a class asks for. It is read off the parameters of the first
constructor that are annotated with a named type, one after the other. Other members of the class
and other parameters have no say in it. -/

namespace ModuleGraph

namespace Node

/-- A type refers to a name: by itself, or as the head of a generic type does. -/
inductive RefersTo : Node → String → Prop
  | plain {type : Node} : type.kind = .typeIdentifier ∨ type.kind = .nestedTypeIdentifier →
      RefersTo type type.text
  | generic {type head : Node} {name : String} : type.kind = .genericType →
      type.head? = some head → RefersTo head name → RefersTo type name

/-- A parameter asks for a name: it has an annotation that starts with a type of this name. -/
structure AsksFor (parameter : Node) (name : String) : Prop where
  kind : parameter.kind = .requiredParameter ∨ parameter.kind = .optionalParameter
  annotated : ∃ mark type, parameter.child? .type = some mark ∧
    mark.elements.head? = some type ∧ type.RefersTo name
  ne_empty : name ≠ ""

def Asks (parameter : Node) : Prop := ∃ name, parameter.AsksFor name

/-- A class member that is a method called `constructor`, with or without a body. -/
def Constructs (member : Node) : Prop :=
  (member.kind = .methodDefinition ∨ member.kind = .methodSignature) ∧
    ∃ name, member.child? .name = some name ∧ name.text = "constructor"

end Node

open Node

/-- The nodes in the parameter list of the first constructor of a class. A class without such a
list takes nothing. -/
inductive ClassDeclaration.Takes (decl : ClassDeclaration) : List Node → Prop
  | listed {body constructor list : Node} : decl.node.child? .body = some body →
      First Constructs body.namedChildren constructor →
      constructor.child? .parameters = some list → decl.Takes list.namedChildren
  | unlisted {body constructor : Node} : decl.node.child? .body = some body →
      First Constructs body.namedChildren constructor →
      constructor.child? .parameters = none → decl.Takes []
  | undeclared {body : Node} : decl.node.child? .body = some body →
      (∀ member ∈ body.namedChildren, ¬ member.Constructs) → decl.Takes []
  | bodiless : decl.node.child? .body = none → decl.Takes []

namespace Node

section Parameters

variable {type parameter member : Node} {name : String}

theorem refersTo_of_descend {limit : Nat} (h : typeName?.descend limit type = some name) :
    type.RefersTo name := by
  induction limit generalizing type with
  | zero => cases h
  | succ limit ih =>
    rw [descend_succ] at h
    split at h
    · rename_i hkind
      cases h
      exact .plain (.inl hkind)
    · rename_i hkind
      cases h
      exact .plain (.inr hkind)
    · rename_i hkind
      obtain ⟨head, hhead, h⟩ := Option.bind_eq_some_iff.mp h
      exact .generic hkind hhead (ih h)
    · cases h

theorem RefersTo.typeName? (h : type.RefersTo name) : type.typeName? = some name := by
  induction h with
  | @plain type hkind =>
    rw [Node.typeName?, descend_of_depth_le (Nat.le_refl _) (Nat.le_succ _), descend_succ]
    rcases hkind with hkind | hkind
    · rw [hkind]
    · rw [hkind]
  | @generic type head name hkind hhead _ ih =>
    -- The head lies below its type, so a limit for the type is one for the head.
    have hdepth := depth_lt (mem_children_of_head? hhead)
    rw [Node.typeName?, descend_of_depth_le (Nat.le_refl _) (Nat.le_succ _), descend_succ, hkind]
    dsimp only
    rw [hhead, Option.bind_some, ← ih]
    exact descend_of_depth_le (Nat.le_of_lt hdepth) (Nat.le_refl _)

theorem typeName?_eq_some_iff : type.typeName? = some name ↔ type.RefersTo name :=
  ⟨refersTo_of_descend, RefersTo.typeName?⟩

theorem parameterType?_eq_some_iff :
    parameter.parameterType? = some name ↔ parameter.AsksFor name := by
  rw [parameterType?, Option.ite_none_right_eq_some, Bool.or_eq_true, decide_eq_true_iff,
    decide_eq_true_iff]
  constructor
  · rintro ⟨hkind, h⟩
    split at h
    · rename_i type htype
      obtain ⟨mark, hmark, hhead⟩ := Option.bind_eq_some_iff.mp htype
      obtain ⟨hname, hempty⟩ := Option.filter_eq_some_iff.mp h
      refine ⟨hkind, ⟨mark, type, hmark, hhead, typeName?_eq_some_iff.mp hname⟩, ?_⟩
      simpa [String.isEmpty_iff] using hempty
    · cases h
  · rintro ⟨hkind, ⟨mark, type, hmark, hhead, hrefers⟩, hempty⟩
    refine ⟨hkind, ?_⟩
    rw [hmark, Option.bind_some, hhead]
    dsimp only
    rw [Option.filter_eq_some_iff]
    exact ⟨hrefers.typeName?, by simpa [String.isEmpty_iff] using hempty⟩

theorem isSome_parameterType?_iff : parameter.parameterType?.isSome = true ↔ parameter.Asks := by
  rw [Option.isSome_iff_exists]
  exact exists_congr fun _ => parameterType?_eq_some_iff

instance (parameter : Node) : Decidable parameter.Asks :=
  decidable_of_iff _ isSome_parameterType?_iff

theorem isConstructor_iff : member.isConstructor = true ↔ member.Constructs := by
  rw [isConstructor, Constructs, Bool.and_eq_true, Bool.or_eq_true, decide_eq_true_iff,
    decide_eq_true_iff]
  refine and_congr_right fun _ => ?_
  cases member.child? .name <;> simp

end Parameters

end Node

namespace ClassDeclaration

variable {decl decl' : ClassDeclaration} {ps ps' : List Node} {body body' : Node}

theorem exists_takes (decl : ClassDeclaration) : ∃ ps, decl.Takes ps := by
  cases hbody : decl.node.child? .body with
  | none => exact ⟨_, .bodiless hbody⟩
  | some body =>
    cases hfirst : body.namedChildren.find? (·.isConstructor) with
    | none =>
      exact ⟨_, .undeclared hbody ((find?_eq_none_iff_forall fun _ => isConstructor_iff).mp hfirst)⟩
    | some constructor =>
      have hconstructor := (find?_eq_some_iff_first fun _ => isConstructor_iff).mp hfirst
      cases hlist : constructor.child? .parameters with
      | none => exact ⟨_, .unlisted hbody hconstructor hlist⟩
      | some list => exact ⟨_, .listed hbody hconstructor hlist⟩

theorem Takes.constructorTypes (h : decl.Takes ps) :
    decl.constructorTypes = ps.filterMap (·.parameterType?) := by
  unfold ClassDeclaration.constructorTypes
  cases h with
  | listed hbody hconstructor hlist =>
    have hfirst := (find?_eq_some_iff_first fun _ => isConstructor_iff).mpr hconstructor
    simp only [hbody, hfirst, Option.bind_some, hlist]
  | unlisted hbody hconstructor hlist =>
    have hfirst := (find?_eq_some_iff_first fun _ => isConstructor_iff).mpr hconstructor
    simp only [hbody, hfirst, Option.bind_some, hlist, List.filterMap_nil]
  | undeclared hbody hnone =>
    have hfirst := (find?_eq_none_iff_forall fun _ => isConstructor_iff).mpr hnone
    simp only [hbody, hfirst, Option.bind_none, List.filterMap_nil]
  | bodiless hbody => simp only [hbody, List.filterMap_nil]

theorem constructorTypes_of_members (hbody : decl.node.child? .body = some body)
    (hbody' : decl'.node.child? .body = some body')
    (h : EqualBut (fun member => ¬ member.Constructs) body.namedChildren body'.namedChildren) :
    decl'.constructorTypes = decl.constructorTypes := by
  have hfirst := h.find? fun member hmember => mt isConstructor_iff.mp hmember
  simp only [constructorTypes, hbody, hbody', hfirst]

theorem constructorTypes_of_parameters (h : decl.Takes ps) (h' : decl'.Takes ps')
    (hps : EqualBut (fun parameter => ¬ parameter.Asks) ps ps') :
    decl'.constructorTypes = decl.constructorTypes := by
  rw [h.constructorTypes, h'.constructorTypes]
  refine (hps.filterMap fun parameter hparameter => ?_).symm
  rwa [← isSome_parameterType?_iff, Bool.not_eq_true, Option.isSome_eq_false_iff,
    Option.isNone_iff_eq_none] at hparameter

/-- A class asks for the names of the types that the parameters of its first constructor are
annotated with, one for each parameter that has such a type, in order. So other members and other
parameters can be inserted and deleted anywhere, and a parameter list can be read in two parts. -/
theorem constructorTypes_asked (decl : ClassDeclaration) :
    (∃ ps, decl.Takes ps) ∧
    (∀ ps, decl.Takes ps → List.Forall₂ AsksFor (ps.filter (·.Asks)) decl.constructorTypes) ∧
    (∀ (decl' : ClassDeclaration) (body body' : Node), decl.node.child? .body = some body →
      decl'.node.child? .body = some body' →
      EqualBut (fun member => ¬ member.Constructs) body.namedChildren body'.namedChildren →
        decl'.constructorTypes = decl.constructorTypes) ∧
    (∀ (decl' : ClassDeclaration) ps ps', decl.Takes ps → decl'.Takes ps' →
      EqualBut (fun parameter => ¬ parameter.Asks) ps ps' →
        decl'.constructorTypes = decl.constructorTypes) ∧
    ∀ front back (first last : ClassDeclaration), decl.Takes (front ++ back) →
      first.Takes front → last.Takes back →
        decl.constructorTypes = first.constructorTypes ++ last.constructorTypes := by
  refine ⟨decl.exists_takes, fun ps h => ?_, fun _ _ _ => constructorTypes_of_members,
    fun _ _ _ => constructorTypes_of_parameters, fun front back first last h hfirst hlast => ?_⟩
  · rw [h.constructorTypes]
    refine forall₂_filterMap (fun parameter => ?_)
      (fun _ _ => parameterType?_eq_some_iff.mp) ps
    rw [Bool.eq_iff_iff, isSome_parameterType?_iff]
    simp
  · rw [h.constructorTypes, hfirst.constructorTypes, hlast.constructorTypes,
      List.filterMap_append]

def storeParameter : Node :=
  ⟨.requiredParameter, none, true, "store: Store",
    [⟨.other "type_annotation", some .type, true, ": Store",
      [⟨.typeIdentifier, none, true, "Store", []⟩]⟩]⟩

def countParameter : Node :=
  ⟨.requiredParameter, none, true, "count: number",
    [⟨.other "type_annotation", some .type, true, ": number",
      [⟨.other "predefined_type", none, true, "number", []⟩]⟩]⟩

def parameterList (ps : List Node) : Node :=
  ⟨.other "formal_parameters", some .parameters, true, "parameters", ps⟩

def methodOf (name : String) (ps : List Node) : Node :=
  ⟨.methodDefinition, none, true, "method",
    [⟨.propertyIdentifier, some .name, true, name, []⟩, parameterList ps]⟩

def bodyOf (members ps : List Node) : Node :=
  ⟨.other "class_body", some .body, true, "body", members ++ [methodOf "constructor" ps]⟩

/-- A class whose constructor stands behind other members. -/
def service (members ps : List Node) : ClassDeclaration :=
  ⟨⟨.classDeclaration, none, true, "class", [bodyOf members ps]⟩, none, []⟩

theorem takes_service (ps : List Node) :
    (service [] ps).Takes (parameterList ps).namedChildren :=
  .listed rfl ⟨[], [], rfl, ⟨.inl rfl, _, rfl, rfl⟩, by simp⟩ rfl

theorem constructorTypes_asked_service :
    (service [methodOf "log" []] [storeParameter, countParameter, storeParameter]).constructorTypes =
      ["Store", "Store"] := by
  have hlog : ¬ (methodOf "log" []).Constructs := by
    rw [← isConstructor_iff]
    decide
  have hone : (service [] [storeParameter]).constructorTypes = ["Store"] := by decide
  obtain ⟨-, -, -, hcount, hsplit⟩ :=
    constructorTypes_asked (service [] [storeParameter, storeParameter])
  obtain ⟨-, -, hmember, -⟩ := constructorTypes_asked
    (service [] [storeParameter, countParameter, storeParameter])
  calc (service [methodOf "log" []] [storeParameter, countParameter, storeParameter]).constructorTypes
    _ = (service [] [storeParameter, countParameter, storeParameter]).constructorTypes :=
      hmember _ _ _ rfl rfl (.insert hlog (.refl _))
    _ = (service [] [storeParameter, storeParameter]).constructorTypes :=
      hcount _ _ _ (takes_service _) (takes_service _) (.insertInto [_] [_] (by decide))
    _ = ["Store", "Store"] := by
      rw [hsplit [_] [_] _ _ (takes_service _) (takes_service [storeParameter])
        (takes_service [storeParameter]), hone]
      rfl

end ClassDeclaration

end ModuleGraph
