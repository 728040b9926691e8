import Mathlib.Data.List.Induction
import Mathlib.Data.List.TakeWhile
import ModuleGraph.Proofs.JsonRoundTrip
import ModuleGraph.Proofs.Traversal

/-! Whatever is read from JSON text is a value that JSON text denotes: no key is in a table
twice, and no whole number has more digits than a text may have. -/

namespace ModuleGraph

namespace Json

theorem digitsValue_lt {ds : List Char} (h : ∀ d ∈ ds, d.isDigit = true) :
    Decimal.digitsValue ds < 10 ^ ds.length := by
  induction ds using List.reverseRecOn with
  | nil => simp [Decimal.digitsValue]
  | append_singleton ds d ih =>
    have hlt := ih fun d hd => h d (by simp [hd])
    have hdigit : d.toNat - '0'.toNat < 10 := by
      have hd := Char.isDigit_iff_toNat.mp (h d (by simp))
      have hnine : '9'.toNat = '0'.toNat + 9 := by decide
      omega
    simp only [Decimal.digitsValue, List.foldl_append, List.foldl_cons, List.foldl_nil,
      List.length_append, List.length_singleton, Nat.pow_succ] at hlt ⊢
    omega

theorem isDigit_of_integerPart? {cs ds rest : List Char} (h : integerPart? cs = some (ds, rest)) :
    ∀ d ∈ ds, d.isDigit = true := by
  cases cs with
  | nil => simp [integerPart?] at h
  | cons c cs =>
    simp only [integerPart?] at h
    split_ifs at h with hzero hdigit
    · simp only [Option.some.injEq, Prod.mk.injEq] at h
      rw [← h.1, hzero]
      simp
    · simp only [Option.some.injEq, Prod.mk.injEq] at h
      rw [← h.1]
      intro d hd
      rcases List.mem_cons.mp hd with rfl | hd
      · exact hdigit
      · exact List.mem_takeWhile_imp hd

theorem isJson_of_readNumber {cs rest : List Char} {v : Value}
    (h : readNumber cs = .ok (v, rest)) : v.IsJson True False := by
  unfold readNumber at h
  split at h
  rename_i isNegative body _
  split at h
  · simp at h
  · rename_i whole more hwhole
    split at h
    split at h
    split at h
    · split at h
      · simp at h
      · rename_i hlong
        have hlt := digitsValue_lt (isDigit_of_integerPart? hwhole)
        have hle := Nat.pow_le_pow_right (show 0 < 10 by decide) (Nat.not_lt.mp hlong)
        simp only [Except.ok.injEq, Prod.mk.injEq] at h
        rw [← h.1]
        refine .int (.inr ?_)
        cases isNegative <;> simp <;> omega
    · simp only [Except.ok.injEq, Prod.mk.injEq] at h
      exact h.1 ▸ .decimal _ trivial

theorem isJson_of_readWord? {cs rest : List Char} {v : Value}
    (h : readWord? cs = some (v, rest)) : v.IsJson True False := by
  obtain ⟨w, hw, he⟩ := Option.map_eq_some_iff.mp h
  have hwords : ∀ w ∈ words, w.2.IsJson True False := by
    simp only [words, List.forall_mem_cons]
    exact ⟨.null, .bool _, .bool _, .decimal _ trivial, .decimal _ trivial, .decimal _ trivial,
      by simp⟩
  have hv : w.2 = v := congrArg Prod.fst he
  exact hv ▸ hwords w (List.mem_of_find?_eq_some hw)

/-- Entries that a table of JSON text may have. -/
structure Proper (es : List (String × Value)) : Prop where
  keys : (es.map Prod.fst).Nodup
  values : ∀ e ∈ es, e.2.IsJson True False

theorem Proper.upsert {es : List (String × Value)} (h : Proper es) (k : String) {v : Value}
    (hv : v.IsJson True False) : Proper (upsert k v es) := by
  refine ⟨nodup_keys_upsert k v h.keys, fun e he => ?_⟩
  rcases eq_or_mem_of_mem_upsert he with rfl | he
  · exact hv
  · exact h.values e he

/-- What the three readers yield when nesting is bounded by `limit`. -/
structure Sound (limit : Nat) : Prop where
  value {cs rest : List Char} {v : Value} (h : readValue limit cs = .ok (v, rest)) :
    v.IsJson True False
  items {cs rest : List Char} {vs : List Value} (h : readItems limit cs = .ok (vs, rest)) :
    ∀ v ∈ vs, v.IsJson True False
  entries {cs rest : List Char} {read es : List (String × Value)}
    (h : readEntries limit read cs = .ok (es, rest)) (hread : Proper read) : Proper es

theorem Sound.value_succ {limit : Nat} (hs : Sound limit) {cs rest : List Char} {v : Value}
    (h : readValue (limit + 1) cs = .ok (v, rest)) : v.IsJson True False := by
  cases cs with
  | nil => simp [readValue] at h
  | cons c cs =>
    rw [readValue] at h
    split_ifs at h with hquote hbracket hbrace
    · obtain ⟨⟨s, more⟩, -, he⟩ := bind_eq_ok.mp h
      rw [pure_eq_ok, Prod.mk.injEq] at he
      exact he.1 ▸ .text _
    · split at h
      · simp only [Except.ok.injEq, Prod.mk.injEq] at h
        exact h.1 ▸ .list (by simp)
      · obtain ⟨⟨vs, more⟩, hvs, he⟩ := bind_eq_ok.mp h
        rw [pure_eq_ok, Prod.mk.injEq] at he
        exact he.1 ▸ .list (hs.items hvs)
    · split at h
      · simp only [Except.ok.injEq, Prod.mk.injEq] at h
        exact h.1 ▸ .table (by simp) (by simp)
      · obtain ⟨⟨es, more⟩, hes, he⟩ := bind_eq_ok.mp h
        rw [pure_eq_ok, Prod.mk.injEq] at he
        have hproper := hs.entries hes ⟨by simp, by simp⟩
        exact he.1 ▸ .table hproper.keys hproper.values
    · split at h
      · rename_i hword
        simp only [Except.ok.injEq] at h
        exact isJson_of_readWord? (h ▸ hword)
      · exact isJson_of_readNumber h

theorem Sound.items_succ {limit : Nat} (hs : Sound limit) {cs rest : List Char}
    {vs : List Value} (h : readItems (limit + 1) cs = .ok (vs, rest)) :
    ∀ v ∈ vs, v.IsJson True False := by
  rw [readItems] at h
  obtain ⟨⟨v, more⟩, hv, h⟩ := bind_eq_ok.mp h
  have hjson := hs.value hv
  simp only at h
  split at h
  · rw [pure_eq_ok, Prod.mk.injEq] at h
    simpa [← h.1] using hjson
  · obtain ⟨⟨ws, more'⟩, hws, h⟩ := bind_eq_ok.mp h
    rw [pure_eq_ok, Prod.mk.injEq] at h
    rw [← h.1, List.forall_mem_cons]
    exact ⟨hjson, hs.items hws⟩
  · simp at h

theorem Sound.entries_succ {limit : Nat} (hs : Sound limit) {cs rest : List Char}
    {read es : List (String × Value)} (h : readEntries (limit + 1) read cs = .ok (es, rest))
    (hread : Proper read) : Proper es := by
  rw [readEntries.eq_def] at h
  simp only at h
  split at h
  · obtain ⟨⟨key, more⟩, -, h⟩ := bind_eq_ok.mp h
    simp only at h
    split at h
    · obtain ⟨⟨v, more'⟩, hv, h⟩ := bind_eq_ok.mp h
      have hproper := hread.upsert (String.ofList key) (hs.value hv)
      simp only at h
      split at h
      · rw [pure_eq_ok, Prod.mk.injEq] at h
        exact h.1 ▸ hproper
      · exact hs.entries h hproper
      · simp at h
    · simp at h
  · simp at h

theorem sound (limit : Nat) : Sound limit := by
  induction limit with
  | zero =>
    exact ⟨fun h => by simp [readValue] at h, fun h => by simp [readItems] at h,
      fun h => by simp [readEntries] at h⟩
  | succ n ih => exact ⟨ih.value_succ, ih.items_succ, ih.entries_succ⟩

theorem isJson_of_parse {text : String} {v : Value} (h : parse text = .ok v) :
    v.IsJson True False := by
  unfold parse at h
  simp only at h
  split_ifs at h
  split at h
  · simp at h
  · rename_i hread
    split at h
    · simp only [Except.ok.injEq] at h
      exact h ▸ (sound _).value hread
    · simp at h

end Json

end ModuleGraph
