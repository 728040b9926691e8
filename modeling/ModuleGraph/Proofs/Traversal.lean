import Mathlib.Data.List.Basic

/-! What a traversal that may fail has gone through when it succeeds. -/

namespace ModuleGraph

variable {α β : Type}

theorem bind_eq_ok {ε : Type} {x : Except ε α} {f : α → Except ε β} {b : β} :
    (x >>= f) = .ok b ↔ ∃ a, x = .ok a ∧ f a = .ok b := by
  cases x with
  | error e => simp [bind, Except.bind]
  | ok a => simp [bind, Except.bind]

theorem pure_eq_ok {ε : Type} {a b : α} : (pure a : Except ε α) = .ok b ↔ a = b :=
  ⟨Except.ok.inj, congrArg Except.ok⟩

theorem map_eq_ok {ε : Type} {f : α → β} {x : Except ε α} {b : β} :
    (f <$> x) = .ok b ↔ ∃ a, x = .ok a ∧ f a = b := by
  cases x with
  | error e => simp
  | ok a => simp

theorem throw_ne_ok {ε : Type} {e : ε} {a : α} : (throw e : Except ε α) ≠ .ok a := by
  simp [throw, throwThe, MonadExceptOf.throw]

theorem mapM_map_eq_pure {m : Type → Type} [Monad m] [LawfulMonad m] {f : α → β} {g : β → m α}
    {xs : List α} (h : ∀ x ∈ xs, g (f x) = pure x) : (xs.map f).mapM g = pure xs := by
  induction xs with
  | nil => rfl
  | cons x xs ih =>
    have hx := h x (by simp)
    have hxs := ih fun y hy => h y (List.mem_cons_of_mem _ hy)
    simp [hx, hxs]

theorem mem_of_mapM_eq_ok {ε : Type} {f : α → Except ε β} {xs : List α} {ys : List β}
    (h : xs.mapM f = .ok ys) : ∀ y ∈ ys, ∃ x ∈ xs, f x = .ok y := by
  induction xs generalizing ys with
  | nil =>
    rw [List.mapM_nil, pure_eq_ok] at h
    simp [← h]
  | cons x xs ih =>
    rw [List.mapM_cons] at h
    obtain ⟨z, hz, h⟩ := bind_eq_ok.mp h
    obtain ⟨zs, hzs, h⟩ := bind_eq_ok.mp h
    rw [pure_eq_ok] at h
    rw [← h, List.forall_mem_cons]
    refine ⟨⟨x, List.mem_cons_self, hz⟩, fun y hy => ?_⟩
    obtain ⟨w, hw, hwy⟩ := ih hzs y hy
    exact ⟨w, List.mem_cons_of_mem _ hw, hwy⟩

theorem exists_of_mapM_eq_ok {ε : Type} {f : α → Except ε β} {xs : List α} {ys : List β}
    (h : xs.mapM f = .ok ys) : ∀ x ∈ xs, ∃ y, f x = .ok y := by
  induction xs generalizing ys with
  | nil => simp
  | cons x xs ih =>
    rw [List.mapM_cons] at h
    obtain ⟨y, hy, h⟩ := bind_eq_ok.mp h
    obtain ⟨rest, hrest, -⟩ := bind_eq_ok.mp h
    exact List.forall_mem_cons.mpr ⟨⟨y, hy⟩, ih hrest⟩

theorem mapM_eq_ok_of_imp {ε : Type} {f g : α → Except ε β} {xs : List α} {ys : List β}
    (himp : ∀ x ∈ xs, ∀ y, f x = .ok y → g x = .ok y) (h : xs.mapM f = .ok ys) :
    xs.mapM g = .ok ys := by
  induction xs generalizing ys with
  | nil => exact pure_eq_ok.mpr (pure_eq_ok.mp h)
  | cons x xs ih =>
    obtain ⟨hx, hxs⟩ := List.forall_mem_cons.mp himp
    rw [List.mapM_cons] at h ⊢
    obtain ⟨y, hy, h⟩ := bind_eq_ok.mp h
    obtain ⟨rest, hrest, h⟩ := bind_eq_ok.mp h
    exact bind_eq_ok.mpr ⟨y, hx y hy, bind_eq_ok.mpr ⟨rest, ih hxs hrest, h⟩⟩

/-- A traversal fails as its first failing member does. -/
theorem mapM_append_cons_eq_error {ε : Type} {f : α → Except ε β} {pre post : List α} {x : α}
    {e : ε} (hpre : ∀ y ∈ pre, ∃ z, f y = .ok z) (hx : f x = .error e) :
    (pre ++ x :: post).mapM f = .error e := by
  induction pre with
  | nil =>
    rw [List.nil_append, List.mapM_cons, hx]
    rfl
  | cons y pre ih =>
    obtain ⟨⟨z, hz⟩, hpre⟩ := List.forall_mem_cons.mp hpre
    rw [List.cons_append, List.mapM_cons, hz, ih hpre]
    rfl

/-- A successful traversal splits where its list splits. -/
theorem mapM_append_cons_eq_ok {ε : Type} {f : α → Except ε β} {pre post : List α} {x : α}
    {ys : List β} (h : (pre ++ x :: post).mapM f = .ok ys) :
    ∃ before y after, ys = before ++ y :: after ∧ f x = .ok y ∧ post.mapM f = .ok after := by
  rw [List.mapM_append] at h
  obtain ⟨before, -, h⟩ := bind_eq_ok.mp h
  obtain ⟨rest, hrest, h⟩ := bind_eq_ok.mp h
  rw [List.mapM_cons] at hrest
  obtain ⟨y, hy, hrest⟩ := bind_eq_ok.mp hrest
  obtain ⟨after, hafter, hrest⟩ := bind_eq_ok.mp hrest
  rw [pure_eq_ok] at h hrest
  exact ⟨before, y, after, by rw [← h, ← hrest], hy, hafter⟩

theorem mem_of_mapM_eq_some {f : α → Option β} {xs : List α} {ys : List β}
    (h : xs.mapM f = some ys) : ∀ y ∈ ys, ∃ x ∈ xs, f x = some y := by
  induction xs generalizing ys with
  | nil =>
    simp only [List.mapM_nil, pure, Option.some.injEq] at h
    simp [← h]
  | cons x xs ih =>
    rw [List.mapM_cons] at h
    obtain ⟨z, hz, h⟩ := Option.bind_eq_some_iff.mp h
    obtain ⟨zs, hzs, h⟩ := Option.bind_eq_some_iff.mp h
    simp only [pure, Option.some.injEq] at h
    rw [← h, List.forall_mem_cons]
    refine ⟨⟨x, List.mem_cons_self, hz⟩, fun y hy => ?_⟩
    obtain ⟨w, hw, hwy⟩ := ih hzs y hy
    exact ⟨w, List.mem_cons_of_mem _ hw, hwy⟩

end ModuleGraph
