import Mathlib.Data.List.Forall2

/-! Lists that are edited by inserting and deleting elements. An edit is of no effect on a search
or a selection that passes over the elements in question. -/

namespace ModuleGraph

variable {α β : Type}

/-- The first element of a list with a property. -/
def First (p : α → Prop) (xs : List α) (x : α) : Prop :=
  ∃ before after, xs = before ++ x :: after ∧ p x ∧ ∀ y ∈ before, ¬ p y

/-- One list arises from the other by inserting and deleting elements that are extra. -/
inductive EqualBut (extra : α → Prop) : List α → List α → Prop
  | nil : EqualBut extra [] []
  | keep {x : α} {xs ys : List α} : EqualBut extra xs ys → EqualBut extra (x :: xs) (x :: ys)
  | delete {x : α} {xs ys : List α} :
      extra x → EqualBut extra xs ys → EqualBut extra (x :: xs) ys
  | insert {y : α} {xs ys : List α} :
      extra y → EqualBut extra xs ys → EqualBut extra xs (y :: ys)

section First

variable {p : α → Prop} {q : α → Bool} {xs : List α} {x : α}

theorem find?_eq_some_iff_first (hq : ∀ x, q x = true ↔ p x) :
    xs.find? q = some x ↔ First p xs x := by
  have hnot : ∀ y, (!q y) = true ↔ ¬ p y := fun y => by rw [← hq y]; simp
  rw [List.find?_eq_some_iff_append, hq]
  constructor
  · rintro ⟨hx, before, after, hxs, hbefore⟩
    exact ⟨before, after, hxs, hx, fun y hy => (hnot y).mp (hbefore y hy)⟩
  · rintro ⟨before, after, hxs, hx, hbefore⟩
    exact ⟨hx, before, after, hxs, fun y hy => (hnot y).mpr (hbefore y hy)⟩

theorem find?_eq_none_iff_forall (hq : ∀ x, q x = true ↔ p x) :
    xs.find? q = none ↔ ∀ x ∈ xs, ¬ p x := by
  rw [List.find?_eq_none]
  exact forall₂_congr fun x _ => not_congr (hq x)

end First

namespace EqualBut

variable {extra : α → Prop} {xs ys : List α}

theorem refl (xs : List α) : EqualBut extra xs xs := by
  induction xs with
  | nil => exact .nil
  | cons x xs ih => exact .keep ih

theorem insertInto (before after : List α) {x : α} (hx : extra x) :
    EqualBut extra (before ++ after) (before ++ x :: after) := by
  induction before with
  | nil => exact .insert hx (refl after)
  | cons y before ih => exact .keep ih

theorem filterMap {f : α → Option β} (h : EqualBut extra xs ys)
    (hf : ∀ x, extra x → f x = none) : xs.filterMap f = ys.filterMap f := by
  induction h with
  | nil => rfl
  | keep _ ih => rw [List.filterMap_cons, List.filterMap_cons, ih]
  | delete hx _ ih => rw [List.filterMap_cons_none (hf _ hx), ih]
  | insert hy _ ih => rw [List.filterMap_cons_none (hf _ hy), ih]

theorem find? {q : α → Bool} (h : EqualBut extra xs ys) (hq : ∀ x, extra x → ¬ q x = true) :
    xs.find? q = ys.find? q := by
  induction h with
  | nil => rfl
  | keep _ ih => rw [List.find?_cons, List.find?_cons, ih]
  | delete hx _ ih => rw [List.find?_cons_of_neg (hq _ hx), ih]
  | insert hy _ ih => rw [List.find?_cons_of_neg (hq _ hy), ih]

end EqualBut

/-- A selection has one result for each element that it takes, in order. -/
theorem forall₂_filterMap {R : α → β → Prop} {p : α → Bool} {f : α → Option β}
    (hp : ∀ a, p a = (f a).isSome) (hR : ∀ a b, f a = some b → R a b) (as : List α) :
    List.Forall₂ R (as.filter p) (as.filterMap f) := by
  induction as with
  | nil => exact .nil
  | cons a as ih =>
    cases hf : f a with
    | none =>
      rw [List.filter_cons_of_neg (by simp [hp, hf]), List.filterMap_cons_none hf]
      exact ih
    | some b =>
      rw [List.filter_cons_of_pos (by simp [hp, hf]), List.filterMap_cons_some hf]
      exact .cons (hR a b hf) ih

end ModuleGraph
