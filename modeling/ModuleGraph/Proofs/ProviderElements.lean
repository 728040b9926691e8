import ModuleGraph.Proofs.DeclarationOrder
import ModuleGraph.Proofs.EditedList
import ModuleGraph.Proofs.Enrichment
import ModuleGraph.Proofs.ProviderEdits

/-! The providers array of a module, element by element. Which elements describe a provider, and
what its record holds, is read off the fields that the element declares. No element has a say in
the record of another one. -/

namespace ModuleGraph

namespace Node

/-- An element of a providers array that describes a provider: a bare name, or an object literal
with a name or a string under `provide`. -/
def IsProvider (e : Node) : Prop :=
  e.kind = .identifier ∨ e.kind = .object ∧
    (e.property? "provide").any (fun v => v.kind = .identifier || v.kind = .string) = true

instance (e : Node) : Decidable e.IsProvider := inferInstanceAs (Decidable (_ ∨ _ ∧ _))

/-- An object literal has a value under a plain key. -/
def Declares (e : Node) (field : String) : Prop :=
  e.kind = .object ∧ (e.property? field).isSome = true

/-- What an object literal holds under a plain key, as a record keeps it. -/
def rawField? (o : Node) (field : String) : Option String :=
  (o.property? field).map (·.rawValue)

end Node

/-- The fields of a record that are kept as the element declares them. -/
def declaredFields (o : Node) (token : String) : ProviderRecord where
  name := token
  kind := "class"
  provide := some token
  useClass := o.rawField? "useClass"
  useFactory := o.rawField? "useFactory"
  useValue := o.rawField? "useValue"
  inject := (o.property? "inject").map (fun _ => o.tokenList "inject")

/-- The providers that elements describe. A class comes before a factory, and a factory before a
value. -/
inductive Describes (root : Node) : Node → ProviderRecord → Prop
  | bare {e : Node} : e.kind = .identifier → Describes root e (classProvider root e.text)
  | bound {o : Node} {token c : String} : o.kind = .object →
      (o.property? "provide").bind (·.nameOrString?) = some token →
      o.rawField? "useClass" = some c →
      Describes root o { declaredFields o token with
        dependencies := root.constructorDependencies c
        isInjectable := root.isInjectable (if c.isEmpty then token else c) }
  | factory {o : Node} {token f : String} : o.kind = .object →
      (o.property? "provide").bind (·.nameOrString?) = some token →
      o.rawField? "useClass" = none → o.rawField? "useFactory" = some f →
      Describes root o { declaredFields o token with
        kind := "factory"
        dependencies := o.tokenList "inject"
        inject := some (o.tokenList "inject") }
  | value {o : Node} {token v : String} : o.kind = .object →
      (o.property? "provide").bind (·.nameOrString?) = some token →
      o.rawField? "useClass" = none → o.rawField? "useFactory" = none →
      o.rawField? "useValue" = some v →
      Describes root o { declaredFields o token with kind := "value" }
  | unbound {o : Node} {token : String} : o.kind = .object →
      (o.property? "provide").bind (·.nameOrString?) = some token →
      o.rawField? "useClass" = none → o.rawField? "useFactory" = none →
      o.rawField? "useValue" = none →
      Describes root o { declaredFields o token with isInjectable := root.isInjectable token }

section Describes

variable {root e o : Node} {p : ProviderRecord} {field : String}

theorem getD_tokens (o : Node) (field : String) :
    ((o.property? field).map (fun _ => o.tokenList field)).getD [] = o.tokenList field := by
  cases hfield : o.property? field with
  | none => simp [Node.tokenList, Node.arrayProperty?, hfield]
  | some value => rfl

theorem describes_of_objectProvider? (hobject : o.kind = .object)
    (h : objectProvider? root o = some p) : Describes root o p := by
  unfold objectProvider? at h
  split at h
  · cases h
  rename_i token htoken
  dsimp only at h
  split at h
  · rename_i c hclass
    cases h
    exact .bound hobject htoken hclass
  · rename_i f hclass hfactory
    cases h
    rw [getD_tokens]
    exact .factory hobject htoken hclass hfactory
  · rename_i v hclass hfactory hvalue
    cases h
    exact .value hobject htoken hclass hfactory hvalue
  · rename_i hclass hfactory hvalue
    cases h
    exact .unbound hobject htoken hclass hfactory hvalue

theorem describes_of_provider? (h : provider? root e = some p) : Describes root e p := by
  unfold provider? at h
  split at h
  · rename_i hbare
    cases h
    exact .bare hbare
  · rename_i hobject
    exact describes_of_objectProvider? hobject h
  · cases h

theorem isSome_nameOrString? (v : Node) :
    v.nameOrString?.isSome = (v.kind = .identifier || v.kind = .string) := by
  unfold Node.nameOrString?
  split <;> simp_all

theorem isSome_provider?_iff : (provider? root e).isSome = true ↔ e.IsProvider := by
  unfold provider? Node.IsProvider
  split
  · rename_i hbare
    simp [hbare]
  · rename_i hobject
    have hobjectProvider : (objectProvider? root e).isSome =
        ((e.property? "provide").bind (·.nameOrString?)).isSome := by
      unfold objectProvider?
      split
      · rename_i hnone
        rw [hnone]
        rfl
      · rename_i token htoken
        rw [htoken]
        dsimp only
        split <;> rfl
    rw [hobjectProvider]
    cases hvalue : e.property? "provide" with
    | none => simp [hobject]
    | some value => simp [hobject, isSome_nameOrString?]
  · rename_i hbare hobject
    exact iff_of_false (by simp) (not_or.mpr ⟨hbare, fun h => hobject h.1⟩)

end Describes

/-- What the fields that an element declares say about its record. -/
structure Fits (e : Node) (p : ProviderRecord) : Prop where
  name : e.kind = .identifier ∧ p.name = e.text ∨ e.kind = .object ∧
    ∃ value, e.property? "provide" = some value ∧ value.nameOrString? = some p.name
  provide : p.provide = some p.name
  factory_iff : p.kind = "factory" ↔ e.Declares "useFactory" ∧ ¬ e.Declares "useClass"
  value_iff : p.kind = "value" ↔
    e.Declares "useValue" ∧ ¬ e.Declares "useFactory" ∧ ¬ e.Declares "useClass"
  class_iff : p.kind = "class" ↔ p.kind ≠ "factory" ∧ p.kind ≠ "value"
  value_dependencies : p.kind = "value" → p.dependencies = []
  factory_dependencies : p.kind = "factory" →
    p.dependencies = e.tokenList "inject" ∧ p.inject = some (e.tokenList "inject")
  inject_eq_none_iff : p.inject = none ↔ ¬ e.Declares "inject" ∧ p.kind ≠ "factory"

section Fits

variable {root e : Node} {p : ProviderRecord} {field : String}

theorem declares_of_rawField? {c : String} (hobject : e.kind = .object)
    (h : e.rawField? field = some c) : e.Declares field := by
  obtain ⟨value, hvalue, -⟩ := Option.map_eq_some_iff.mp h
  exact ⟨hobject, by rw [hvalue]; rfl⟩

theorem not_declares_of_rawField? (h : e.rawField? field = none) : ¬ e.Declares field := by
  rintro ⟨-, hfield⟩
  rw [Option.map_eq_none_iff.mp h] at hfield
  cases hfield

theorem not_declares_of_identifier (h : e.kind = .identifier) : ¬ e.Declares field := by
  rintro ⟨hobject, -⟩
  rw [h] at hobject
  cases hobject

theorem map_tokens_eq_none_iff (hobject : e.kind = .object) :
    (e.property? field).map (fun _ => e.tokenList field) = none ↔ ¬ e.Declares field := by
  simp [Node.Declares, hobject]

theorem Describes.name (h : Describes root e p) :
    e.kind = .identifier ∧ p.name = e.text ∨ e.kind = .object ∧
      ∃ value, e.property? "provide" = some value ∧ value.nameOrString? = some p.name := by
  cases h with
  | bare hbare => exact .inl ⟨hbare, rfl⟩
  | bound hobject htoken _ => exact .inr ⟨hobject, Option.bind_eq_some_iff.mp htoken⟩
  | factory hobject htoken _ _ => exact .inr ⟨hobject, Option.bind_eq_some_iff.mp htoken⟩
  | value hobject htoken _ _ _ => exact .inr ⟨hobject, Option.bind_eq_some_iff.mp htoken⟩
  | unbound hobject htoken _ _ _ => exact .inr ⟨hobject, Option.bind_eq_some_iff.mp htoken⟩

theorem Describes.provide (h : Describes root e p) : p.provide = some p.name := by
  cases h <;> rfl

/-- A class provider fits its element if the element declares no factory and no value that would
count. -/
theorem fits_of_class (h : Describes root e p) (hkind : p.kind = "class")
    (hfactory : e.Declares "useClass" ∨ ¬ e.Declares "useFactory")
    (hvalue : e.Declares "useClass" ∨ ¬ e.Declares "useValue")
    (hinject : p.inject = none ↔ ¬ e.Declares "inject") : Fits e p where
  name := h.name
  provide := h.provide
  factory_iff := iff_of_false (by simp [hkind]) fun ⟨hfield, hclass⟩ =>
    hfactory.elim hclass (· hfield)
  value_iff := iff_of_false (by simp [hkind]) fun ⟨hfield, _, hclass⟩ =>
    hvalue.elim hclass (· hfield)
  class_iff := iff_of_true hkind (by simp [hkind])
  value_dependencies := fun hother => by simp [hkind] at hother
  factory_dependencies := fun hother => by simp [hkind] at hother
  inject_eq_none_iff := by simp [hinject, hkind]

theorem fits_of_factory (h : Describes root e p) (hkind : p.kind = "factory")
    (hfactory : e.Declares "useFactory") (hclass : ¬ e.Declares "useClass")
    (hdependencies : p.dependencies = e.tokenList "inject")
    (hinject : p.inject = some (e.tokenList "inject")) : Fits e p where
  name := h.name
  provide := h.provide
  factory_iff := iff_of_true hkind ⟨hfactory, hclass⟩
  value_iff := iff_of_false (by simp [hkind]) fun ⟨_, hnone, _⟩ => hnone hfactory
  class_iff := iff_of_false (by simp [hkind]) fun ⟨hother, _⟩ => hother hkind
  value_dependencies := fun hother => by simp [hkind] at hother
  factory_dependencies := fun _ => ⟨hdependencies, hinject⟩
  inject_eq_none_iff := iff_of_false (by simp [hinject]) fun ⟨_, hother⟩ => hother hkind

theorem fits_of_value (h : Describes root e p) (hkind : p.kind = "value")
    (hvalue : e.Declares "useValue") (hfactory : ¬ e.Declares "useFactory")
    (hclass : ¬ e.Declares "useClass") (hdependencies : p.dependencies = [])
    (hinject : p.inject = none ↔ ¬ e.Declares "inject") : Fits e p where
  name := h.name
  provide := h.provide
  factory_iff := iff_of_false (by simp [hkind]) fun ⟨hfield, _⟩ => hfactory hfield
  value_iff := iff_of_true hkind ⟨hvalue, hfactory, hclass⟩
  class_iff := iff_of_false (by simp [hkind]) fun ⟨_, hother⟩ => hother hkind
  value_dependencies := fun _ => hdependencies
  factory_dependencies := fun hother => by simp [hkind] at hother
  inject_eq_none_iff := by simp [hinject, hkind]

theorem Describes.fits (h : Describes root e p) : Fits e p := by
  have hdescribes := h
  cases h with
  | bare hbare =>
    have hnone : ∀ field, ¬ e.Declares field := fun _ => not_declares_of_identifier hbare
    exact fits_of_class hdescribes rfl (.inr (hnone _)) (.inr (hnone _))
      (iff_of_true rfl (hnone _))
  | bound hobject _ hclass =>
    have hclass := declares_of_rawField? hobject hclass
    exact fits_of_class hdescribes rfl (.inl hclass) (.inl hclass)
      (map_tokens_eq_none_iff hobject)
  | factory hobject _ hclass hfactory =>
    exact fits_of_factory hdescribes rfl (declares_of_rawField? hobject hfactory)
      (not_declares_of_rawField? hclass) rfl rfl
  | value hobject _ hclass hfactory hvalue =>
    exact fits_of_value hdescribes rfl (declares_of_rawField? hobject hvalue)
      (not_declares_of_rawField? hfactory) (not_declares_of_rawField? hclass) rfl
      (map_tokens_eq_none_iff hobject)
  | unbound hobject _ _ hfactory hvalue =>
    exact fits_of_class hdescribes rfl (.inr (not_declares_of_rawField? hfactory))
      (.inr (not_declares_of_rawField? hvalue)) (map_tokens_eq_none_iff hobject)

end Fits

/-- A module has one provider for each element that is a name or an object literal with a usable
token, in order, and its record fits what this element declares. Other elements can come, go or
move without a change to the record of this one. -/
theorem declaredProviders_elements (root : Node) :
    List.Forall₂ Fits (root.providerElements.filter (·.IsProvider)) root.declaredProviders ∧
    (∀ file memory r, (readModule root file memory).module = some r →
      r.providers.map (fun p => { p with dependencies := [] }) =
        root.declaredProviders.map fun p => { p with dependencies := [] }) ∧
    ∀ root', root.ProvidersEdited root' →
      root'.declaredProviders = root'.providerElements.filterMap (provider? root) := by
  refine ⟨?_, fun file memory r h => ?_, fun root' h => ?_⟩
  · refine forall₂_filterMap (fun e => ?_) (fun e p h => (describes_of_provider? h).fits) _
    rw [Bool.eq_iff_iff, isSome_provider?_iff]
    simp
  · rw [providers_readModule h, enrichProviders, List.map_map]
    rfl
  · exact List.filterMap_congr fun e _ => h.provider? e

open Node

/-- A configuration that lists `S` behind other providers. -/
def listing (others : List Node) : Node :=
  objectOf [("providers", arrayOf (others ++ [word "S"]))]

/-- An injectable class `S` and a module that lists it behind other providers. -/
def providing (text : String) (others : List Node) : Node :=
  ⟨.other "program", none, true, text,
    [classOf "S" [⟨.decorator, none, true, "@Injectable", [word "Injectable"]⟩],
      classOf "M" [moduleDecorator (listing others)]]⟩

theorem providersEdited_providing (text text' : String) (others others' : List Node) :
    (providing text others).ProvidersEdited (providing text' others') := by
  have hrole : ∀ {kind field named text text' children children'},
      SameRole ⟨kind, field, named, text, children⟩ ⟨kind, field, named, text', children'⟩ :=
    ⟨rfl, rfl, rfl⟩
  have hpair : EditedPair (pairOf ("providers", arrayOf (others ++ [word "S"])))
      (pairOf ("providers", arrayOf (others' ++ [word "S"]))) :=
    .inr ⟨by simp [isPairFor_pairOf], hrole,
      .cons (.inl rfl) (.cons (.inr ⟨rfl, hrole⟩) .nil)⟩
  have hconfig : EditedConfiguration (listing others) (listing others') :=
    .inr ⟨rfl, hrole, .cons hpair .nil⟩
  have hdecorator : EditedDecorator (moduleDecorator (listing others))
      (moduleDecorator (listing others')) :=
    .inr ⟨⟨rfl, rfl⟩, hrole, .cons (.inr ⟨rfl, hrole, .cons (.inl rfl)
      (.cons (.inr ⟨rfl, hrole, .cons hconfig .nil⟩) .nil)⟩) .nil⟩
  exact ⟨hrole, .cons (IsEdit.refl _)
    (.cons (.inl (.inr ⟨rfl, hrole, .cons (.inl rfl) (.cons hdecorator .nil)⟩)) .nil)⟩

theorem declaredProviders_providing :
    (providing "alone" []).ProvidersEdited (providing "third" [word "A", tokenProvider false]) ∧
    (providing "alone" []).declaredProviders.map (fun p => (p.name, p.isInjectable)) =
      [("S", true)] ∧
    (providing "third" [word "A", tokenProvider false]).declaredProviders.map
        (fun p => (p.name, p.isInjectable)) = [("A", false), ("T", false), ("S", true)] := by
  have hedited := providersEdited_providing "alone" "third" [] [word "A", tokenProvider false]
  refine ⟨hedited, by decide +kernel, ?_⟩
  rw [(declaredProviders_elements (providing "alone" [])).2.2 _ hedited]
  decide +kernel

end ModuleGraph
