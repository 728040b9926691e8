import Mathlib.Data.List.Forall2
import ModuleGraph.FileReader

/-! Syntax trees that read alike. A reader looks at a few labels of a node and goes on with the
children that it picks by their labels, so it reads the same in trees whose nodes have the same
labels and whose children correspond, apart from comments that play no role. -/

namespace ModuleGraph

section Rel

variable {α β γ δ : Type} {R : α → β → Prop} {S : γ → δ → Prop}

theorem rel_cases {a : Option α} {b : Option β} (h : Option.Rel R a b) :
    (a = none ∧ b = none) ∨ ∃ x y, a = some x ∧ b = some y ∧ R x y := by
  cases h with
  | none => exact .inl ⟨rfl, rfl⟩
  | some hxy => exact .inr ⟨_, _, rfl, rfl, hxy⟩

theorem rel_bind {a : Option α} {b : Option β} {f : α → Option γ} {g : β → Option δ}
    (h : Option.Rel R a b) (hfg : ∀ x y, R x y → Option.Rel S (f x) (g y)) :
    Option.Rel S (a.bind f) (b.bind g) := by
  cases h with
  | none => exact .none
  | some hxy => exact hfg _ _ hxy

theorem bind_eq_of_rel {a : Option α} {b : Option β} {f : α → Option γ} {g : β → Option γ}
    (h : Option.Rel R a b) (hfg : ∀ x y, R x y → g y = f x) : b.bind g = a.bind f := by
  cases h with
  | none => rfl
  | some hxy => exact hfg _ _ hxy

theorem map_eq_of_rel {a : Option α} {b : Option β} {f : α → γ} {g : β → γ}
    (h : Option.Rel R a b) (hfg : ∀ x y, R x y → g y = f x) : b.map g = a.map f := by
  cases h with
  | none => rfl
  | some hxy => exact congrArg some (hfg _ _ hxy)

theorem isSome_eq_of_rel {a : Option α} {b : Option β} (h : Option.Rel R a b) :
    b.isSome = a.isSome := by
  cases h <;> rfl

theorem head?_rel {xs : List α} {ys : List β} (h : List.Forall₂ R xs ys) :
    Option.Rel R xs.head? ys.head? := by
  cases h with
  | nil => exact .none
  | cons hxy _ => exact .some hxy

theorem find?_rel {xs : List α} {ys : List β} {p : α → Bool} {q : β → Bool}
    (h : List.Forall₂ R xs ys) (hpq : ∀ x y, R x y → q y = p x) :
    Option.Rel R (xs.find? p) (ys.find? q) := by
  rw [← List.head?_filter, ← List.head?_filter]
  exact head?_rel (List.rel_filter (fun {x y} hxy => by simp [hpq x y hxy]) h)

theorem filterMap_eq_of_rel {xs : List α} {ys : List β} {f : α → Option γ} {g : β → Option γ}
    (h : List.Forall₂ R xs ys) (hfg : ∀ x y, R x y → g y = f x) :
    ys.filterMap g = xs.filterMap f := by
  induction h with
  | nil => rfl
  | cons hxy _ ih => rw [List.filterMap_cons, List.filterMap_cons, hfg _ _ hxy, ih]

theorem map_list_eq_of_rel {xs : List α} {ys : List β} {f : α → γ} {g : β → γ}
    (h : List.Forall₂ R xs ys) (hfg : ∀ x y, R x y → g y = f x) : ys.map g = xs.map f := by
  induction h with
  | nil => rfl
  | cons hxy _ ih => rw [List.map_cons, List.map_cons, hfg _ _ hxy, ih]

end Rel

namespace Node

/-- What a node shows of itself, apart from its children. -/
structure SameLabels (n n' : Node) : Prop where
  kind : n'.kind = n.kind
  field : n'.field = n.field
  named : n'.named = n.named
  text : n'.text = n.text

/-- A comment that plays no role in its parent. -/
def IsAside (n : Node) : Prop := n.kind = .comment ∧ n.field = none

/-- Children that correspond one by one, apart from asides that are left out. -/
inductive Trimmed (R : Node → Node → Prop) : List Node → List Node → Prop
  | nil : Trimmed R [] []
  | keep {c c' : Node} {cs cs' : List Node} :
      R c c' → Trimmed R cs cs' → Trimmed R (c :: cs) (c' :: cs')
  | drop {c : Node} {cs cs' : List Node} :
      c.IsAside → Trimmed R cs cs' → Trimmed R (c :: cs) cs'

/-- The same node with children that correspond. -/
structure Alike (R : Node → Node → Prop) (n n' : Node) : Prop where
  labels : SameLabels n n'
  children : Trimmed R n.children n'.children

/-- Nodes that correspond have the same labels. -/
class KeepsLabels (R : Node → Node → Prop) : Prop where
  labels {n n' : Node} : R n n' → SameLabels n n'

instance : KeepsLabels SameLabels := ⟨id⟩

instance (R : Node → Node → Prop) : KeepsLabels (Alike R) := ⟨Alike.labels⟩

variable {R : Node → Node → Prop} {n n' : Node} {cs cs' : List Node}

theorem Trimmed.filter {p : Node → Bool} (h : Trimmed R cs cs')
    (hp : ∀ c c', R c c' → p c' = p c) : Trimmed R (cs.filter p) (cs'.filter p) := by
  induction h with
  | nil => exact .nil
  | @keep c c' cs cs' hc h ih =>
    rw [List.filter_cons, List.filter_cons, hp c c' hc]
    split
    · exact .keep hc ih
    · exact ih
  | @drop c cs cs' hc h ih =>
    rw [List.filter_cons]
    split
    · exact .drop hc ih
    · exact ih

theorem Trimmed.forall₂ (h : Trimmed R cs cs') (hasides : ∀ c ∈ cs, ¬ c.IsAside) :
    List.Forall₂ R cs cs' := by
  induction h with
  | nil => exact .nil
  | keep hc _ ih => exact .cons hc (ih (List.forall_mem_cons.mp hasides).2)
  | drop hc _ _ => exact absurd hc (List.forall_mem_cons.mp hasides).1

/-- Children with a property that no aside has correspond one by one. -/
theorem Trimmed.forall₂_filter {p : Node → Bool} (h : Trimmed R cs cs')
    (hp : ∀ c c', R c c' → p c' = p c) (hasides : ∀ c, c.IsAside → p c = false) :
    List.Forall₂ R (cs.filter p) (cs'.filter p) := by
  refine (h.filter hp).forall₂ fun c hc haside => ?_
  have hpc := (List.mem_filter.mp hc).2
  rw [hasides c haside] at hpc
  cases hpc

theorem Trimmed.find? {p : Node → Bool} (h : Trimmed R cs cs')
    (hp : ∀ c c', R c c' → p c' = p c) (hasides : ∀ c, c.IsAside → p c = false) :
    Option.Rel R (cs.find? p) (cs'.find? p) := by
  rw [← List.head?_filter, ← List.head?_filter]
  exact head?_rel (h.forall₂_filter hp hasides)

theorem Trimmed.filterMap {α β : Type} {S : α → β → Prop} {f : Node → Option α}
    {g : Node → Option β} (h : Trimmed R cs cs') (hfg : ∀ c c', R c c' → Option.Rel S (f c) (g c'))
    (hasides : ∀ c, c.IsAside → f c = none) :
    List.Forall₂ S (cs.filterMap f) (cs'.filterMap g) := by
  induction h with
  | nil => exact .nil
  | @keep c c' cs cs' hc h ih =>
    rcases rel_cases (hfg c c' hc) with ⟨hf, hg⟩ | ⟨x, y, hf, hg, hxy⟩
    · rw [List.filterMap_cons_none hf, List.filterMap_cons_none hg]
      exact ih
    · rw [List.filterMap_cons_some hf, List.filterMap_cons_some hg]
      exact .cons hxy ih
  | @drop c cs cs' hc h ih =>
    rw [List.filterMap_cons_none (hasides c hc)]
    exact ih

theorem Trimmed.mono {S : Node → Node → Prop} (h : Trimmed R cs cs')
    (hRS : ∀ c c', R c c' → S c c') : Trimmed S cs cs' := by
  induction h with
  | nil => exact .nil
  | keep hc _ ih => exact .keep (hRS _ _ hc) ih
  | drop hc _ ih => exact .drop hc ih

theorem Alike.mono {S : Node → Node → Prop} (h : Alike R n n')
    (hRS : ∀ c c', R c c' → S c c') : Alike S n n' :=
  ⟨h.labels, h.children.mono hRS⟩

section Readers

variable [KeepsLabels R]

theorem Trimmed.named (h : Trimmed R cs cs') :
    Trimmed R (cs.filter (·.named)) (cs'.filter (·.named)) :=
  h.filter fun _ _ hc => (KeepsLabels.labels hc).named

theorem Alike.namedChildren (h : Alike R n n') : Trimmed R n.namedChildren n'.namedChildren :=
  h.children.named

theorem Alike.child? (h : Alike R n n') (f : Field) :
    Option.Rel R (n.child? f) (n'.child? f) :=
  h.children.find? (fun c c' hc => by rw [(KeepsLabels.labels hc).field])
    (fun c hc => by simp [hc.2])

theorem Alike.elements (h : Alike R n n') : List.Forall₂ R n.elements n'.elements :=
  h.namedChildren.forall₂_filter (fun c c' hc => by rw [(KeepsLabels.labels hc).kind])
    (fun c hc => by simp [hc.1])

theorem Alike.decorators (h : Alike R n n') : List.Forall₂ R n.decorators n'.decorators :=
  h.children.forall₂_filter (fun c c' hc => by rw [(KeepsLabels.labels hc).kind])
    (fun c hc => by simp [hc.1])

theorem Alike.childText (h : Alike R n n') (f : Field) :
    (n'.child? f).map (·.text) = (n.child? f).map (·.text) :=
  map_eq_of_rel (h.child? f) fun _ _ hc => (KeepsLabels.labels hc).text

theorem Alike.simpleName? (h : Alike R n n') : n'.simpleName? = n.simpleName? := by
  unfold Node.simpleName?
  rw [h.labels.kind]
  split
  · exact congrArg some h.labels.text
  · exact h.childText .property
  · rfl

theorem Alike.decoratorExpression? (h : Alike R n n') :
    Option.Rel R n.decoratorExpression? n'.decoratorExpression? :=
  head?_rel h.elements

theorem Alike.decoratorName? (h : Alike (Alike (Alike R)) n n') :
    n'.decoratorName? = n.decoratorName? := by
  unfold Node.decoratorName?
  rcases rel_cases h.decoratorExpression? with ⟨he, he'⟩ | ⟨e, e', he, he', halike⟩
  · rw [he, he']
  · rw [he, he']
    dsimp only
    rw [halike.labels.kind, halike.simpleName?,
      bind_eq_of_rel (halike.child? .function) fun _ _ hc => hc.simpleName?]

theorem Alike.callArguments (h : Alike (Alike R) n n') :
    List.Forall₂ R n.callArguments n'.callArguments := by
  unfold Node.callArguments
  rcases rel_cases (h.child? .arguments) with ⟨ha, ha'⟩ | ⟨a, a', ha, ha', halike⟩
  · rw [ha, ha']
    exact .nil
  · rw [ha, ha']
    exact halike.elements

theorem Alike.isPairFor (h : Alike R n n') (name : String) :
    n'.isPairFor name = n.isPairFor name := by
  unfold Node.isPairFor
  rw [h.labels.kind]
  rcases rel_cases (h.child? .key) with ⟨hk, hk'⟩ | ⟨k, k', hk, hk', hlabels⟩
  · rw [hk, hk']
  · rw [hk, hk']
    dsimp only
    rw [(KeepsLabels.labels hlabels).kind, (KeepsLabels.labels hlabels).text]

theorem isPairFor_aside {c : Node} (hc : c.IsAside) (name : String) :
    c.isPairFor name = false := by
  simp [Node.isPairFor, hc.1]

theorem Alike.property? (h : Alike (Alike R) n n') (name : String) :
    Option.Rel R (n.property? name) (n'.property? name) :=
  rel_bind (h.namedChildren.find? (fun _ _ hc => hc.isPairFor name) fun _ hc =>
    isPairFor_aside hc name) fun _ _ hc => hc.child? .value

theorem Alike.isConstructor (h : Alike R n n') : n'.isConstructor = n.isConstructor := by
  unfold Node.isConstructor
  rw [h.labels.kind]
  rcases rel_cases (h.child? .name) with ⟨hname, hname'⟩ | ⟨c, c', hname, hname', hc⟩
  · rw [hname, hname']
  · rw [hname, hname']
    dsimp only
    rw [(KeepsLabels.labels hc).text]

/-- The values of two object literals under plain keys correspond. -/
def SameProperties (R : Node → Node → Prop) (n n' : Node) : Prop :=
  ∀ name, Option.Rel R (n.property? name) (n'.property? name)

theorem SameProperties.arrayProperty? (h : SameProperties (Alike R) n n') (name : String) :
    Option.Rel (List.Forall₂ R) (n.arrayProperty? name) (n'.arrayProperty? name) := by
  unfold Node.arrayProperty?
  rcases rel_cases (h name) with ⟨hv, hv'⟩ | ⟨v, v', hv, hv', halike⟩
  · rw [hv, hv']
    exact .none
  · rw [hv, hv']
    dsimp only
    rw [halike.labels.kind]
    split
    · exact .some halike.elements
    · exact .none

end Readers

theorem SameLabels.nameOrString? (h : SameLabels n n') : n'.nameOrString? = n.nameOrString? := by
  unfold Node.nameOrString? Node.unquoted
  rw [h.kind, h.text]

theorem SameLabels.rawValue (h : SameLabels n n') : n'.rawValue = n.rawValue := by
  unfold Node.rawValue
  rw [h.nameOrString?, h.text]

end Node

theorem objectProvider?_of_sameProperties {root o o' : Node}
    (h : Node.SameProperties (Node.Alike Node.SameLabels) o o') :
    objectProvider? root o' = objectProvider? root o := by
  have hraw : ∀ name, (o'.property? name).map (·.rawValue) = (o.property? name).map (·.rawValue) :=
    fun name => map_eq_of_rel (h name) fun _ _ hv => hv.labels.rawValue
  have htoken : (o'.property? "provide").bind (·.nameOrString?) =
      (o.property? "provide").bind (·.nameOrString?) :=
    bind_eq_of_rel (h "provide") fun _ _ hv => hv.labels.nameOrString?
  have htokens : o'.tokenList "inject" = o.tokenList "inject" := by
    unfold Node.tokenList
    rcases rel_cases (h.arrayProperty? "inject") with ⟨ha, ha'⟩ | ⟨es, es', ha, ha', hes⟩
    · rw [ha, ha']
    · rw [ha, ha']
      exact filterMap_eq_of_rel hes fun _ _ he => he.nameOrString?
  have hinject : (o'.property? "inject").map (fun _ => o'.tokenList "inject") =
      (o.property? "inject").map (fun _ => o.tokenList "inject") :=
    map_eq_of_rel (h "inject") fun _ _ _ => htokens
  unfold objectProvider?
  rw [htoken, hraw, hraw, hraw, hinject]

end ModuleGraph
