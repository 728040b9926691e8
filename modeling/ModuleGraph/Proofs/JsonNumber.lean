import Mathlib.Algebra.Group.Int.Defs
import Mathlib.Algebra.Group.Nat.Defs
import Mathlib.Data.List.Basic
import ModuleGraph.Json.Reader
import ModuleGraph.Json.Writer

/-! Reading a whole number gives back the number that was written, if it has no more digits
than a number may have and no character follows that would belong to it. -/

namespace ModuleGraph.Json

/-- The rest of a text behind a whole number that ends there. -/
def EndsNumber : List Char → Prop
  | [] => True
  | c :: _ => c.isDigit = false ∧ c ≠ '.' ∧ c ≠ 'e' ∧ c ≠ 'E'

theorem takeWhile_digits {ds rest : List Char} (hds : ∀ d ∈ ds, d.isDigit = true)
    (hrest : EndsNumber rest) : (ds ++ rest).takeWhile Char.isDigit = ds := by
  rw [List.takeWhile_append_of_pos hds]
  cases rest with
  | nil => simp
  | cons c rest => simp [hrest.1]

theorem dropWhile_digits {ds rest : List Char} (hds : ∀ d ∈ ds, d.isDigit = true)
    (hrest : EndsNumber rest) : (ds ++ rest).dropWhile Char.isDigit = rest := by
  rw [List.dropWhile_append_of_pos hds]
  cases rest with
  | nil => simp
  | cons c rest => simp [hrest.1]

theorem fractionPart_of_endsNumber {rest : List Char} (h : EndsNumber rest) :
    fractionPart rest = ([], rest) := by
  cases rest with
  | nil => rfl
  | cons c rest =>
    unfold fractionPart
    split
    · rename_i heq
      exact absurd (List.cons.inj heq).1 h.2.1
    · rfl

theorem exponentPart_of_endsNumber {rest : List Char} (h : EndsNumber rest) :
    exponentPart rest = (none, rest) := by
  cases rest with
  | nil => rfl
  | cons c rest => simp [exponentPart, h.2.2.1, h.2.2.2]

theorem isDigit_of_mem_toDigits {n : Nat} {d : Char} (h : d ∈ Nat.toDigits 10 n) :
    d.isDigit = true :=
  Nat.isDigit_of_mem_toDigits (by decide) (by decide) h

/-- Only zero is written with a leading zero. -/
theorem head?_toDigits {n : Nat} (hn : n ≠ 0) : (Nat.toDigits 10 n).head? ≠ some '0' := by
  induction n using Nat.strongRecOn with
  | ind n ih =>
    rw [Nat.toDigits_eq_if (by decide)]
    split
    · rename_i hlt
      have hdigit : ∀ d < 10, d ≠ 0 → Nat.digitChar d ≠ '0' := by decide
      simpa using hdigit n hlt hn
    · have hrec := ih (n / 10) (by omega) (by omega)
      rw [List.head?_append_of_ne_nil _ Nat.toDigits_ne_nil]
      exact hrec

theorem integerPart?_toDigits (n : Nat) {rest : List Char} (hrest : EndsNumber rest) :
    integerPart? (Nat.toDigits 10 n ++ rest) = some (Nat.toDigits 10 n, rest) := by
  by_cases hn : n = 0
  · subst hn
    rfl
  · have hall : ∀ d ∈ Nat.toDigits 10 n, d.isDigit = true :=
      fun d hd => isDigit_of_mem_toDigits hd
    have hhead := head?_toDigits hn
    cases hds : Nat.toDigits 10 n with
    | nil => exact absurd hds Nat.toDigits_ne_nil
    | cons d ds =>
      rw [hds] at hall hhead
      have hd0 : d ≠ '0' := by simpa using hhead
      have hd : d.isDigit = true := hall d (by simp)
      have htail : ∀ d ∈ ds, d.isDigit = true := fun d hd => hall d (by simp [hd])
      simp [integerPart?, hd0, hd, takeWhile_digits htail hrest, dropWhile_digits htail hrest]

theorem digitsValue_toDigits (n : Nat) : Decimal.digitsValue (Nat.toDigits 10 n) = n := by
  have h := Nat.ofDigitChars_ten_toDigits (n := n)
  simpa only [Nat.ofDigitChars, Decimal.digitsValue, Nat.mul_comm] using h

theorem length_toDigits_le_iff {n : Nat} :
    (Nat.toDigits 10 n).length ≤ digitLimit ↔ n < 10 ^ digitLimit :=
  Nat.length_toDigits_le_iff (by decide) (by decide)

theorem toList_toString (n : Int) : (toString n).toList =
    if n < 0 then '-' :: Nat.toDigits 10 n.natAbs else Nat.toDigits 10 n.natAbs := by
  cases n with
  | ofNat n =>
    have hn : ¬ Int.ofNat n < 0 := by simp
    rw [if_neg hn]
    exact Nat.toList_repr
  | negSucc n =>
    rw [if_pos (Int.negSucc_lt_zero n)]
    show ("-" ++ Nat.repr (n + 1)).toList = _
    rw [String.toList_append, Nat.toList_repr]
    rfl

theorem digit_ne {d : Char} (h : d.isDigit = true) :
    d ≠ '"' ∧ d ≠ '[' ∧ d ≠ '{' ∧ d ≠ '-' ∧ d ≠ 'n' ∧ d ≠ 't' ∧ d ≠ 'f' ∧ d ≠ 'N' ∧ d ≠ 'I' := by
  refine ⟨?_, ?_, ?_, ?_, ?_, ?_, ?_, ?_, ?_⟩ <;> (rintro rfl; revert h; decide)

theorem toDigits_cons (n : Nat) :
    ∃ d ds, Nat.toDigits 10 n = d :: ds ∧ d.isDigit = true := by
  obtain ⟨d, ds, hds⟩ := List.exists_cons_of_ne_nil (Nat.toDigits_ne_nil (n := n) (b := 10))
  exact ⟨d, ds, hds, isDigit_of_mem_toDigits (hds ▸ List.mem_cons_self)⟩

theorem toString_cons (n : Int) : ∃ d ds, d.isDigit = true ∧
    ((toString n).toList = d :: ds ∨ (toString n).toList = '-' :: d :: ds) := by
  obtain ⟨d, ds, hds, hd⟩ := toDigits_cons n.natAbs
  refine ⟨d, ds, hd, ?_⟩
  rw [toList_toString, hds]
  split
  · exact .inr rfl
  · exact .inl rfl

theorem readWord?_toString (n : Int) (rest : List Char) :
    readWord? ((toString n).toList ++ rest) = none := by
  obtain ⟨d, ds, hd, h⟩ := toString_cons n
  obtain ⟨-, -, -, hminus, hn, ht, hf, hN, hI⟩ := digit_ne hd
  rcases h with h | h
  · rw [h]
    simp [readWord?, words, hminus.symm, hn.symm, ht.symm, hf.symm, hN.symm, hI.symm]
  · rw [h]
    simp [readWord?, words, hI.symm]

/-- What becomes of the digits of a number behind an optional sign. -/
theorem readNumber_digits (n : Nat) {cs rest : List Char} {isNegative : Bool}
    (hcs : cs = (if isNegative then ['-'] else []) ++ (Nat.toDigits 10 n ++ rest))
    (hrest : EndsNumber rest) :
    readNumber cs =
      if digitLimit < (Nat.toDigits 10 n).length then
        .error (.integerTooLong (Nat.toDigits 10 n).length, cs.length)
      else .ok (.int (if isNegative then -n else n), rest) := by
  have hwhole := integerPart?_toDigits n hrest
  obtain ⟨d, ds, hds, hd⟩ := toDigits_cons n
  have hminus : d ≠ '-' := (digit_ne hd).2.2.2.1
  unfold readNumber
  split
  rename_i sign body hsign
  have hbody : sign = isNegative ∧ body = Nat.toDigits 10 n ++ rest := by
    cases isNegative with
    | true => simpa [hcs, eq_comm] using hsign
    | false => simpa [hcs, hds, hminus, eq_comm] using hsign
  simp [hbody.1, hbody.2, hwhole, fractionPart_of_endsNumber hrest,
    exponentPart_of_endsNumber hrest, digitsValue_toDigits]

theorem toList_toString_append (n : Int) (rest : List Char) : (toString n).toList ++ rest =
    (if decide (n < 0) then ['-'] else []) ++ (Nat.toDigits 10 n.natAbs ++ rest) := by
  rw [toList_toString]
  by_cases hn : n < 0 <;> simp [hn]

theorem mem_toString {n : Int} {c : Char} (h : c ∈ (toString n).toList) :
    c.isDigit = true ∨ c = '-' := by
  rw [toList_toString] at h
  split at h
  · rcases List.mem_cons.mp h with h | h
    · exact .inr h
    · exact .inl (isDigit_of_mem_toDigits h)
  · exact .inl (isDigit_of_mem_toDigits h)

theorem toDigits_append_inj {a b : Nat} {x y : List Char} (hx : EndsNumber x)
    (hy : EndsNumber y) (h : Nat.toDigits 10 a ++ x = Nat.toDigits 10 b ++ y) :
    a = b ∧ x = y := by
  have hdigit : ∀ n, ∀ d ∈ Nat.toDigits 10 n, d.isDigit = true :=
    fun n d hd => isDigit_of_mem_toDigits hd
  have hdigits : Nat.toDigits 10 a = Nat.toDigits 10 b := by
    rw [← takeWhile_digits (hdigit a) hx, h, takeWhile_digits (hdigit b) hy]
  have hab : a = b := by
    rw [← digitsValue_toDigits a, hdigits, digitsValue_toDigits]
  rw [hdigits] at h
  exact ⟨hab, List.append_cancel_left h⟩

theorem toString_append_inj {n k : Int} {x y : List Char} (hx : EndsNumber x)
    (hy : EndsNumber y) (h : (toString n).toList ++ x = (toString k).toList ++ y) :
    n = k ∧ x = y := by
  have hsigns : ∀ {a b : Nat} {x y : List Char},
      '-' :: (Nat.toDigits 10 a ++ x) ≠ Nat.toDigits 10 b ++ y := by
    intro a b x y h
    obtain ⟨d, ds, hds, hd⟩ := toDigits_cons b
    rw [hds] at h
    exact (digit_ne hd).2.2.2.1 (List.head_eq_of_cons_eq h).symm
  rw [toList_toString_append, toList_toString_append] at h
  by_cases hn : n < 0 <;> by_cases hk : k < 0 <;>
    simp only [hn, hk, decide_true, decide_false, if_true, Bool.false_eq_true, if_false,
      List.cons_append, List.nil_append] at h
  · obtain ⟨habs, hrest⟩ := toDigits_append_inj hx hy (List.tail_eq_of_cons_eq h)
    exact ⟨by omega, hrest⟩
  · exact absurd h hsigns
  · exact absurd h.symm hsigns
  · obtain ⟨habs, hrest⟩ := toDigits_append_inj hx hy h
    exact ⟨by omega, hrest⟩

theorem readNumber_toString {n : Int} (hn : n.natAbs < 10 ^ digitLimit) {rest : List Char}
    (hrest : EndsNumber rest) :
    readNumber ((toString n).toList ++ rest) = .ok (.int n, rest) := by
  have hshort := Nat.not_lt.mpr (length_toDigits_le_iff.mpr hn)
  rw [readNumber_digits n.natAbs (toList_toString_append n rest) hrest, if_neg hshort]
  by_cases hneg : n < 0
  · have hvalue : -(n.natAbs : Int) = n := by omega
    simp only [hneg, decide_true, if_true, hvalue]
  · have hvalue : (n.natAbs : Int) = n := by omega
    simp only [hneg, decide_false, Bool.false_eq_true, if_false, hvalue]

/-- A number with too many digits is not read. -/
theorem readNumber_toString_overlong {n : Int} (hn : 10 ^ digitLimit ≤ n.natAbs)
    {rest : List Char} (hrest : EndsNumber rest) :
    ∃ e, readNumber ((toString n).toList ++ rest) = .error e := by
  have hlong : digitLimit < (Nat.toDigits 10 n.natAbs).length :=
    Nat.lt_of_not_le fun hle => Nat.not_lt.mpr hn (length_toDigits_le_iff.mp hle)
  rw [readNumber_digits n.natAbs (toList_toString_append n rest) hrest, if_pos hlong]
  exact ⟨_, rfl⟩

end ModuleGraph.Json
