import Mathlib.Data.List.Lex
import Mathlib.Data.String.Basic
import ModuleGraph.Proofs.VisitedPlaces

/-! The order in which a walk comes to its places: lexicographic in the names on the way to them.
So a walk is determined by the places that it comes to. -/

namespace ModuleGraph.FileTree

variable {t : FileTree} {excluded : String → Bool} {entries entries' : List (String × FileTree)}

theorem pairwise_byName {α : Type} {es : List (String × α)} (h : (es.map Prod.fst).Nodup) :
    (byName es).Pairwise (fun a b => a.1 < b.1) := by
  have hle : (byName es).Pairwise (fun a b => decide (a.1 ≤ b.1) = true) :=
    List.pairwise_mergeSort
      (fun a b c hab hbc => by simpa using le_trans (by simpa using hab) (by simpa using hbc))
      (fun a b => by simpa using le_total a.1 b.1) es
  have hne : (byName es).Pairwise (fun a b => a.1 ≠ b.1) :=
    List.pairwise_map.mp (((byName_perm es).map Prod.fst).nodup_iff.mpr h)
  exact (hle.and hne).imp fun hab => lt_of_le_of_ne (by simpa using hab.1) hab.2

theorem byName_eq {α : Type} {es sorted : List (String × α)} (hperm : sorted.Perm es)
    (hsorted : sorted.Pairwise (fun a b => a.1 < b.1)) : byName es = sorted := by
  have hkeys : (es.map Prod.fst).Nodup :=
    (hperm.map Prod.fst).nodup_iff.mp (List.pairwise_map.mpr (hsorted.imp fun hab => hab.ne))
  exact ((byName_perm es).trans hperm.symm).eq_of_pairwise
    (fun a b _ _ hab hba => absurd hba (lt_asymm hab)) (pairwise_byName hkeys) hsorted

/-- The parts of a walk stand in the order of their first names, so the whole is in order if
each part is. -/
theorem pairwise_walk (h : (entries.map Prod.fst).Nodup)
    (heach : ∀ e ∈ walkEntries excluded entries, e.2.Pairwise (· < ·)) :
    (walk excluded entries).Pairwise (· < ·) := by
  have hkeys : (walkEntries excluded entries).map Prod.fst = entries.map Prod.fst := by
    simp [walkEntries_eq_map, Function.comp_def]
  have hhead : ∀ e ∈ byName (walkEntries excluded entries), ∀ place ∈ e.2,
      ∃ rest, place = e.1 :: rest := by
    intro e he place hplace
    rw [(byName_perm _).mem_iff, walkEntries_eq_map] at he
    obtain ⟨entry, -, rfl⟩ := List.mem_map.mp he
    exact exists_eq_cons_of_mem_walkEntry hplace
  refine List.pairwise_flatMap.mpr ⟨fun e he => heach e ((byName_perm _).mem_iff.mp he), ?_⟩
  refine (pairwise_byName (hkeys ▸ h)).imp_of_mem fun {a b} ha hb hlt x hx y hy => ?_
  obtain ⟨_, rfl⟩ := hhead a ha x hx
  obtain ⟨_, rfl⟩ := hhead b hb y hy
  exact List.cons_lt_cons_iff.mpr (.inl hlt)

theorem pairwise_walkEntry_directory (name : String)
    (hinside : (walk excluded entries).Pairwise (· < ·)) :
    (walkEntry excluded name (.directory entries)).Pairwise (· < ·) := by
  rw [walkEntry_directory]
  split
  · exact List.pairwise_singleton _ _
  refine List.pairwise_cons.mpr ⟨fun place hplace => ?_,
    hinside.map _ fun a b hab => List.cons_lt_cons_iff.mpr (.inr ⟨rfl, hab⟩)⟩
  obtain ⟨rest, hrest, rfl⟩ := List.mem_map.mp hplace
  obtain ⟨next, rest, rfl⟩ := List.exists_cons_of_ne_nil (ne_nil_of_mem_walk hrest)
  exact List.cons_lt_cons_iff.mpr (.inr ⟨rfl, List.nil_lt_cons _ _⟩)

mutual

theorem pairwise_walkEntry (excluded : String → Bool) (name : String) :
    ∀ {t : FileTree}, t.Proper → (walkEntry excluded name t).Pairwise (· < ·)
  | .file _, _ => by simp [walkEntry]
  | .link _, _ => by simp [walkEntry]
  | .directory entries, h =>
    pairwise_walkEntry_directory name (pairwise_walk (h.distinct [] entries rfl)
      (pairwise_walkEntries excluded fun e he => h.entry he))

theorem pairwise_walkEntries (excluded : String → Bool) :
    ∀ {entries : List (String × FileTree)}, (∀ e ∈ entries, e.2.Proper) →
      ∀ e ∈ walkEntries excluded entries, e.2.Pairwise (· < ·)
  | [], _ => by simp [walkEntries]
  | (name, t) :: rest, h => by
    obtain ⟨hfirst, hrest⟩ := List.forall_mem_cons.mp h
    rw [walkEntries]
    exact List.forall_mem_cons.mpr
      ⟨pairwise_walkEntry excluded name hfirst, pairwise_walkEntries excluded hrest⟩

end

theorem pairwise_walk_of_proper (h : (directory entries).Proper) :
    (walk excluded entries).Pairwise (· < ·) :=
  pairwise_walk (h.distinct [] entries rfl) (pairwise_walkEntries excluded fun _ he => h.entry he)

/-- Lists with the same members in one strict order are the same. -/
theorem eq_of_pairwise {α : Type} {r : α → α → Prop} (hasymm : ∀ a b, r a b → ¬ r b a)
    {l l' : List α} (h : l.Pairwise r) (h' : l'.Pairwise r) (hmem : ∀ a, a ∈ l ↔ a ∈ l') :
    l = l' := by
  have hne : ∀ {a b : α}, r a b → a ≠ b := by
    intro a b hab he
    subst he
    exact hasymm a a hab hab
  have hperm : l.Perm l' := (List.perm_ext_iff_of_nodup (h.imp hne) (h'.imp hne)).mpr hmem
  exact hperm.eq_of_pairwise (fun a b _ _ hab hba => absurd hba (hasymm a b hab)) h h'

theorem walk_eq_filter (h : (directory entries).Proper) :
    walk excluded entries = (walk (fun _ => false) entries).filter
      (fun place => place.dropLast.all (!excluded ·)) := by
  refine eq_of_pairwise (fun _ _ => lt_asymm) (pairwise_walk_of_proper h)
    ((pairwise_walk_of_proper h).filter _) ?_
  intro place
  rw [List.mem_filter, mem_walk h, mem_walk h, visits_iff_not_excluded]
  simp

theorem walk_of_alike (h : (directory entries).Proper) (h' : (directory entries').Proper)
    (halike : ∀ place, Alike ((directory entries).at? place) ((directory entries').at? place)) :
    walk excluded entries' = walk excluded entries := by
  refine eq_of_pairwise (fun _ _ => lt_asymm) (pairwise_walk_of_proper h')
    (pairwise_walk_of_proper h) fun place => ?_
  rw [mem_walk h, mem_walk h']
  exact ⟨.of_alike (halike place).symm, .of_alike (halike place)⟩

end ModuleGraph.FileTree
