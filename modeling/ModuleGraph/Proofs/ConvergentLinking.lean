import Mathlib.Dynamics.PeriodicPts.Defs
import ModuleGraph.Proofs.RepeatedLinking

/-! Linking over and over. Every run writes each dependency by its canonical name once more, and
a name that still changes is given by a provider that stands before the one that gave it the
last time. So no name comes back once it has changed, and nothing changes any more after as
many runs as there are providers. -/

namespace ModuleGraph

open Function (IsFixedPt)

namespace ModuleMap

/-- The number of providers before the first that answers to a dependency. -/
def rank (m : ModuleMap) (d : String) : Nat :=
  m.providers.findIdx (·.answers d)

theorem rank_eq_length {m : ModuleMap} {d : String} {before after : List ProviderRecord}
    {p : ProviderRecord} (hsplit : m.providers = before ++ p :: after)
    (hbefore : ∀ q ∈ before, q.answers d = false) (hp : p.answers d = true) :
    m.rank d = before.length := by
  have hnone : before.findIdx (·.answers d) = before.length :=
    List.findIdx_eq_length.mpr hbefore
  rw [rank, hsplit, List.findIdx_append, hnone, if_neg (Nat.lt_irrefl _), List.findIdx_cons, hp]
  simp

theorem isFixedPt_canonicalName_or_rank_lt (m : ModuleMap) (d : String) :
    IsFixedPt m.canonicalName d ∨ m.rank d < m.providers.length := by
  cases hd : m.provider? d with
  | none =>
    left
    rw [IsFixedPt, canonicalName, hd]
    rfl
  | some p =>
    exact .inr (List.findIdx_lt_length_of_exists
      ⟨p, List.mem_of_find?_eq_some hd, List.find?_some hd⟩)

/-- The provider that gives a name answers to it, so only one that stands before it can give
another name to this name. -/
theorem rank_canonicalName_lt {m : ModuleMap} {d : String}
    (h : ¬ IsFixedPt m.canonicalName (m.canonicalName d)) :
    m.rank (m.canonicalName d) < m.rank d := by
  cases hd : m.provider? d with
  | none =>
    have hsame : m.canonicalName d = d := by rw [canonicalName, hd]; rfl
    exact absurd (congrArg m.canonicalName hsame) h
  | some p =>
    obtain ⟨hp, before, after, hsplit, hbefore⟩ := List.find?_eq_some_iff_append.mp hd
    have hname : m.canonicalName d = p.name := by rw [canonicalName, hd]; rfl
    have hrank : m.rank d = before.length :=
      rank_eq_length hsplit (fun q hq => by simpa using hbefore q hq) hp
    have hown : p.answers p.name = true := by simp [ProviderRecord.answers]
    rw [hname] at h ⊢
    rw [hrank]
    cases hq : before.find? (·.answers p.name) with
    | none =>
      have hself : m.provider? p.name = some p := by
        rw [provider?, hsplit, List.find?_append, hq, List.find?_cons_of_pos hown]
        rfl
      exact absurd (by rw [IsFixedPt, canonicalName, hself]; rfl) h
    | some q =>
      have hlt : before.findIdx (·.answers p.name) < before.length :=
        List.findIdx_lt_length_of_exists ⟨q, List.mem_of_find?_eq_some hq, List.find?_some hq⟩
      rw [rank, hsplit, List.findIdx_append, if_pos hlt]
      exact hlt

theorem isFixedPt_or_rank_iterate_lt (m : ModuleMap) (d : String) (k : Nat) :
    IsFixedPt m.canonicalName (m.canonicalName^[k] d) ∨
      m.rank (m.canonicalName^[k] d) + k < m.providers.length := by
  induction k with
  | zero => exact m.isFixedPt_canonicalName_or_rank_lt d
  | succ k ih =>
    rw [Function.iterate_succ_apply']
    by_cases hnext : IsFixedPt m.canonicalName (m.canonicalName (m.canonicalName^[k] d))
    · exact .inl hnext
    · have hnow : ¬ IsFixedPt m.canonicalName (m.canonicalName^[k] d) :=
        fun h => hnext (congrArg m.canonicalName h)
      have hrank := ih.resolve_left hnow
      have hlt := rank_canonicalName_lt hnext
      right
      omega

theorem isFixedPt_iterate_canonicalName (m : ModuleMap) (d : String) {k : Nat}
    (hk : m.providers.length ≤ k) : IsFixedPt m.canonicalName (m.canonicalName^[k] d) := by
  refine (m.isFixedPt_or_rank_iterate_lt d k).resolve_right fun hlt => ?_
  omega

theorem iterate_link (m : ModuleMap) (k : Nat) :
    link^[k + 1] m = m.linkWith m.canonicalName^[k + 1] := by
  induction k with
  | zero => exact m.link_eq_linkInTwoPasses
  | succ k ih =>
    rw [Function.iterate_succ_apply', ih, link_eq_linkInTwoPasses, linkInTwoPasses,
      canonicalName_linkWith, linkWith_linkWith, ← Function.iterate_succ']

end ModuleMap

namespace SharedGraph

theorem Owned.link {g : SharedGraph} (h : g.Owned) : g.link.Owned := by
  rw [Owned, link_eq, cells, ModuleMap.providers_mapRecords_relinkImports]
  exact h

/-- It makes no difference whether a run finds the cells that the last one left in the
snapshots or a graph in which nothing is shared. -/
theorem Owned.view_iterate_link {g : SharedGraph} (h : g.Owned) (k : Nat) :
    (SharedGraph.link^[k] g).view = ModuleMap.link^[k] g.view := by
  induction k generalizing g with
  | zero => rfl
  | succ k ih =>
    rw [Function.iterate_succ_apply, Function.iterate_succ_apply, ih h.link, view_link h,
      ModuleMap.link_eq_linkInTwoPasses]

end SharedGraph

/-- Linking settles: after as many runs as the graph has providers, and after one run at least,
a further run changes nothing. This holds of runs in place on shared records as well, and a
name that leads back to itself does so at once. -/
theorem ModuleMap.iterate_link_settles (m : ModuleMap) :
    IsFixedPt link (link^[max 1 m.providers.length] m) ∧
    (∀ k, (SharedGraph.link^[k] m.share).view = link^[k] m) ∧
    Function.periodicPts m.canonicalName = Function.fixedPoints m.canonicalName := by
  refine ⟨?_, fun k => ?_, ?_⟩
  · obtain ⟨k, hk⟩ : ∃ k, max 1 m.providers.length = k + 1 :=
      ⟨max 1 m.providers.length - 1, by omega⟩
    rw [IsFixedPt, ← Function.iterate_succ_apply' link, hk, iterate_link, iterate_link,
      linkWith_eq_linkWith_iff]
    intro p _ d _
    rw [Function.iterate_succ_apply']
    exact m.isFixedPt_iterate_canonicalName d (by omega)
  · rw [m.owned_share.view_iterate_link, m.view_share]
  · ext d
    constructor
    · rintro ⟨k, hpos, hperiod⟩
      have hback : m.canonicalName^[m.providers.length * k] d = d :=
        hperiod.const_mul m.providers.length
      have hfixed := m.isFixedPt_iterate_canonicalName d (Nat.le_mul_of_pos_right _ hpos)
      rwa [hback] at hfixed
    · exact fun hfixed => ⟨1, Nat.one_pos, hfixed⟩

end ModuleGraph
