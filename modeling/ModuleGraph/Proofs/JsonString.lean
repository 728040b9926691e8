import Mathlib.Data.List.Basic
import ModuleGraph.Json.Reader
import ModuleGraph.Json.Writer

/-! Reading a JSON string gives back the characters that were written. Characters beyond the
first plane are written as two UTF-16 units, which are read as one character again. -/

namespace ModuleGraph.Json

theorem hexValue?_digitChar : ∀ d < 16, hexValue? (Nat.digitChar d) = some d := by decide

theorem unit?_hexDigits {n : Nat} (h : n < 0x10000) {rest : List Char} (hr : rest ≠ []) :
    unit? (hexDigits 4 n ++ rest) = some (n, rest) := by
  have he : rest.isEmpty = false := by simpa using hr
  have hw := hexValue?_digitChar (n / 16 / 16 / 16 % 16) (by omega)
  have hx := hexValue?_digitChar (n / 16 / 16 % 16) (by omega)
  have hy := hexValue?_digitChar (n / 16 % 16) (by omega)
  have hz := hexValue?_digitChar (n % 16) (by omega)
  simp only [hexDigits, List.nil_append, List.cons_append, unit?, he, hw, hx, hy, hz,
    Bool.false_eq_true, if_false, Option.some.injEq, Prod.mk.injEq, and_true]
  omega

theorem toNat_not_surrogate (c : Char) : c.toNat < 0xD800 ∨ 0xDFFF < c.toNat :=
  c.valid.imp id And.left

theorem toNat_lt (c : Char) : c.toNat < 0x110000 := by
  rcases c.valid with h | h
  · exact Nat.lt_trans h (by decide)
  · exact h.2

theorem readUnit_hexDigits {c : Char} (h : c.toNat < 0x10000) {rest : List Char}
    (hr : rest ≠ []) : readUnit (hexDigits 4 c.toNat ++ rest) = .ok (c, rest) := by
  have hs := toNat_not_surrogate c
  have hhigh : isHighHalf c.toNat = false := by
    simp only [isHighHalf, Bool.and_eq_false_iff, decide_eq_false_iff_not]
    omega
  have hlow : isLowHalf c.toNat = false := by
    simp only [isLowHalf, Bool.and_eq_false_iff, decide_eq_false_iff_not]
    omega
  simp [readUnit, unit?_hexDigits h hr, hhigh, hlow, Char.ofNat_toNat]

theorem readUnit_halves {high low : Nat} (hhigh : isHighHalf high = true)
    (hlow : isLowHalf low = true) {rest : List Char} (hr : rest ≠ []) :
    readUnit (hexDigits 4 high ++ (unitEscape low ++ rest)) =
      .ok (Char.ofNat (0x10000 + (high - 0xD800) * 0x400 + (low - 0xDC00)), rest) := by
  have hh : high < 0x10000 := by
    simp only [isHighHalf, Bool.and_eq_true, decide_eq_true_iff] at hhigh
    omega
  have hl : low < 0x10000 := by
    simp only [isLowHalf, Bool.and_eq_true, decide_eq_true_iff] at hlow
    omega
  have hlen : ¬ (hexDigits 4 low ++ rest).length < 5 := by
    have hpos := List.length_pos_iff.mpr hr
    simp only [List.length_append, hexDigits, List.length_cons, List.length_nil]
    omega
  have hmore : unitEscape low ++ rest = '\\' :: 'u' :: (hexDigits 4 low ++ rest) := rfl
  rw [hmore, readUnit, unit?_hexDigits hh (by simp)]
  simp only [hhigh, if_true, hlen, if_false, unit?_hexDigits hl hr, hlow]

theorem readUnit_pair {c : Char} (h : 0x10000 ≤ c.toNat) {rest : List Char} (hr : rest ≠ []) :
    readUnit (hexDigits 4 (0xD800 + (c.toNat - 0x10000) / 0x400) ++
      (unitEscape (0xDC00 + (c.toNat - 0x10000) % 0x400) ++ rest)) = .ok (c, rest) := by
  have hc := toNat_lt c
  generalize hhigh : 0xD800 + (c.toNat - 0x10000) / 0x400 = high
  generalize hlow : 0xDC00 + (c.toNat - 0x10000) % 0x400 = low
  have hvalue : 0x10000 + (high - 0xD800) * 0x400 + (low - 0xDC00) = c.toNat := by omega
  have hishigh : isHighHalf high = true := by
    simp only [isHighHalf, Bool.and_eq_true, decide_eq_true_iff]
    omega
  have hislow : isLowHalf low = true := by
    simp only [isLowHalf, Bool.and_eq_true, decide_eq_true_iff]
    omega
  rw [readUnit_halves hishigh hislow hr, hvalue, Char.ofNat_toNat]

theorem eq_of_toNat_eq {c d : Char} (h : c.toNat = d.toNat) : c = d := by
  rw [← Char.ofNat_toNat c, h, Char.ofNat_toNat]

/-- A character stands for itself, behind a backslash, or as one or two units. -/
theorem escapedChar_cases (c : Char) :
    (escapedChar c = [c] ∧ c ≠ '"' ∧ c ≠ '\\' ∧ ¬ c.toNat < 0x20) ∨
    (∃ e, escapedChar c = ['\\', e] ∧ e ≠ 'u' ∧ escaped? e = some c) ∨
    (escapedChar c = unitEscape c.toNat ∧ c.toNat < 0x10000) ∨
    (escapedChar c = unitEscape (0xD800 + (c.toNat - 0x10000) / 0x400) ++
      unitEscape (0xDC00 + (c.toNat - 0x10000) % 0x400) ∧ 0x10000 ≤ c.toNat) := by
  by_cases hquote : c = '"'
  · subst hquote
    exact .inr (.inl ⟨'"', rfl, by decide, rfl⟩)
  by_cases hslash : c = '\\'
  · subst hslash
    exact .inr (.inl ⟨'\\', rfl, by decide, rfl⟩)
  by_cases hline : c = '\n'
  · subst hline
    exact .inr (.inl ⟨'n', rfl, by decide, rfl⟩)
  by_cases hreturn : c = '\r'
  · subst hreturn
    exact .inr (.inl ⟨'r', rfl, by decide, rfl⟩)
  by_cases htab : c = '\t'
  · subst htab
    exact .inr (.inl ⟨'t', rfl, by decide, rfl⟩)
  by_cases hback : c.toNat = 0x08
  · obtain rfl := eq_of_toNat_eq (d := '\x08') hback
    exact .inr (.inl ⟨'b', rfl, by decide, rfl⟩)
  by_cases hfeed : c.toNat = 0x0C
  · obtain rfl := eq_of_toNat_eq (d := '\x0c') hfeed
    exact .inr (.inl ⟨'f', rfl, by decide, rfl⟩)
  generalize hspelling : escapedChar c = spelling
  simp only [escapedChar, if_neg hquote, if_neg hslash, if_neg hline, if_neg hreturn, if_neg htab,
    if_neg hback, if_neg hfeed] at hspelling
  by_cases hplain : 0x20 ≤ c.toNat ∧ c.toNat < 0x7F
  · rw [if_pos (by simpa using hplain)] at hspelling
    exact .inl ⟨hspelling.symm, hquote, hslash, by omega⟩
  rw [if_neg (by simpa using hplain)] at hspelling
  by_cases hunit : c.toNat < 0x10000
  · rw [if_pos hunit] at hspelling
    exact .inr (.inr (.inl ⟨hspelling.symm, hunit⟩))
  · rw [if_neg hunit] at hspelling
    exact .inr (.inr (.inr ⟨hspelling.symm, Nat.not_lt.mp hunit⟩))

/-- One character of a string is read from its spelling, and reading goes on behind it. -/
theorem readString_escapedChar (start limit : Nat) (c : Char) {rest : List Char}
    (hr : rest ≠ []) :
    readString start (limit + 1) (escapedChar c ++ rest) =
      (do let (cs, rest) ← readString start limit rest; pure (c :: cs, rest)) := by
  rcases escapedChar_cases c with ⟨he, hquote, hslash, hn⟩ | ⟨e, he, hu, hc⟩ | ⟨he, hn⟩ | ⟨he, hn⟩
  · rw [he]
    simp [readString, hquote, hslash, hn]
  · rw [he]
    simp [readString, hc]
  · have hunit := readUnit_hexDigits hn hr
    rw [he, unitEscape]
    simp only [List.cons_append, List.nil_append, readString, hunit]
    rfl
  · have hunit := readUnit_pair hn hr
    rw [he, List.append_assoc, unitEscape]
    simp only [List.cons_append, List.nil_append, readString, hunit]
    rfl

theorem readString_flatMap_escapedChar (start : Nat) {limit : Nat} {cs rest : List Char}
    (h : cs.length < limit) :
    readString start limit (cs.flatMap escapedChar ++ '"' :: rest) = .ok (cs, rest) := by
  induction cs generalizing limit with
  | nil =>
    obtain ⟨n, rfl⟩ : ∃ n, limit = n + 1 := ⟨limit - 1, by simp at h; omega⟩
    rfl
  | cons c cs ih =>
    obtain ⟨n, rfl⟩ : ∃ n, limit = n + 1 := ⟨limit - 1, by simp at h; omega⟩
    have hn : cs.length < n := by simpa using h
    rw [List.flatMap_cons, List.append_assoc, readString_escapedChar _ _ _ (by simp), ih hn]
    rfl

theorem length_le_flatMap_escapedChar (cs : List Char) :
    cs.length ≤ (cs.flatMap escapedChar).length := by
  induction cs with
  | nil => simp
  | cons c cs ih =>
    have hc : 0 < (escapedChar c).length := by
      rcases escapedChar_cases c with ⟨he, -⟩ | ⟨e, he, -⟩ | ⟨he, -⟩ | ⟨he, -⟩ <;>
        rw [he] <;> exact Nat.succ_pos _
    rw [List.flatMap_cons, List.length_append, List.length_cons]
    omega

theorem readString_quoted (s : String) (rest : List Char) :
    readString ((s.toList.flatMap escapedChar ++ '"' :: rest).length + 1)
      ((s.toList.flatMap escapedChar ++ '"' :: rest).length + 1)
      (s.toList.flatMap escapedChar ++ '"' :: rest) = .ok (s.toList, rest) := by
  apply readString_flatMap_escapedChar
  have hlen := length_le_flatMap_escapedChar s.toList
  rw [List.length_append]
  omega

end ModuleGraph.Json
