import ModuleGraph.Proofs.JsonNumber
import ModuleGraph.Proofs.JsonString

/-! Reading JSON text gives back the value that was written, unless a whole number in it has more
digits than a number may have: then nothing is read at all. Blanks between tokens are skipped,
and the length of the text bounds the nesting. -/

namespace ModuleGraph

open Json (digitLimit)

/-- The values that JSON text denotes: a whole number has no more digits than a text may have,
and a table has no key twice. Decimal numbers are among them if `decimals` allows it, and so
are longer whole numbers if `overlong` does. -/
inductive Value.IsJson (decimals overlong : Prop) : Value → Prop where
  | null : IsJson decimals overlong .null
  | bool (b : Bool) : IsJson decimals overlong (.bool b)
  | int {n : Int} (h : overlong ∨ n.natAbs < 10 ^ digitLimit) : IsJson decimals overlong (.int n)
  | decimal (literal : String) (h : decimals) : IsJson decimals overlong (.decimal literal)
  | text (s : String) : IsJson decimals overlong (.text s)
  | list {vs : List Value} (h : ∀ v ∈ vs, IsJson decimals overlong v) :
      IsJson decimals overlong (.list vs)
  | table {es : List (String × Value)} (hkeys : (es.map Prod.fst).Nodup)
      (h : ∀ e ∈ es, IsJson decimals overlong e.2) : IsJson decimals overlong (.table es)

namespace Json

variable {overlong : Prop}

section Yields

variable {ε α β : Type}

/-- A reading that ends with a given result. Only where `overlong` holds may it fail instead. -/
def Yields (overlong : Prop) (reading : Except ε α) (a : α) : Prop :=
  reading = .ok a ∨ overlong ∧ ∃ e, reading = .error e

theorem Yields.bind {x : Except ε α} {f : α → Except ε β} {a : α} {b : β}
    (hx : Yields overlong x a) (hf : Yields overlong (f a) b) : Yields overlong (x >>= f) b := by
  rcases hx with rfl | ⟨hlong, e, rfl⟩
  · exact hf
  · exact .inr ⟨hlong, e, rfl⟩

end Yields

theorem skipBlanks_cons {c : Char} (h : isBlank c = false) (cs : List Char) :
    skipBlanks (c :: cs) = c :: cs := by
  simp [skipBlanks, h]

theorem skipBlanks_newLine (indent : Nat) (cs : List Char) :
    skipBlanks (newLine indent ++ cs) = skipBlanks cs := by
  have hall : ∀ c ∈ newLine indent, isBlank c = true := by
    intro c hc
    rcases List.mem_cons.mp hc with rfl | hc
    · rfl
    · rw [List.eq_of_mem_replicate hc]
      rfl
  rw [skipBlanks, List.dropWhile_append_of_pos hall, skipBlanks]

theorem endsNumber_newLine (indent : Nat) (cs : List Char) : EndsNumber (newLine indent ++ cs) :=
  ⟨by decide, by decide, by decide, by decide⟩

theorem endsNumber_comma (cs : List Char) : EndsNumber (',' :: cs) :=
  ⟨by decide, by decide, by decide, by decide⟩

/-- A written value starts with no blank, not as the end of a list does, and with no byte
order mark. -/
theorem write_cons {v : Value} (h : v.IsJson False overlong) (indent : Nat) :
    ∃ c cs, write indent v = c :: cs ∧ isBlank c = false ∧ c ≠ ']' ∧ c ≠ '\ufeff' := by
  cases h with
  | null => exact ⟨_, _, rfl, by decide, by decide, by decide⟩
  | bool b => cases b <;> exact ⟨_, _, rfl, by decide, by decide, by decide⟩
  | @int n h =>
    obtain ⟨d, ds, hd, he⟩ := toString_cons n
    have hdigit : ∀ c : Char, c.isDigit = false → d ≠ c := by
      rintro c hc rfl
      simp [hc] at hd
    rcases he with he | he
    · refine ⟨d, ds, by rw [write, he], ?_, hdigit _ (by decide), hdigit _ (by decide)⟩
      simp [isBlank, hdigit _ (show ' '.isDigit = false by decide),
        hdigit _ (show '\t'.isDigit = false by decide),
        hdigit _ (show '\n'.isDigit = false by decide),
        hdigit _ (show '\r'.isDigit = false by decide)]
    · exact ⟨'-', d :: ds, by rw [write, he], by decide, by decide, by decide⟩
  | decimal literal h => exact h.elim
  | text s => exact ⟨_, _, rfl, by decide, by decide, by decide⟩
  | @list vs h => cases vs <;> exact ⟨_, _, rfl, by decide, by decide, by decide⟩
  | @table es hkeys h =>
    cases es with
    | nil => exact ⟨_, _, rfl, by decide, by decide, by decide⟩
    | cons e es => exact ⟨_, _, rfl, by decide, by decide, by decide⟩

theorem skipBlanks_write {v : Value} (h : v.IsJson False overlong) (indent : Nat)
    (rest : List Char) : skipBlanks (write indent v ++ rest) = write indent v ++ rest := by
  obtain ⟨c, cs, he, hc, -⟩ := write_cons h indent
  rw [he, List.cons_append, skipBlanks_cons hc]

/-- Reading a written value stops behind it, whatever follows that is no part of a number. -/
def ReadsBack (overlong : Prop) (v : Value) : Prop :=
  ∀ indent limit rest, (write indent v).length ≤ limit → EndsNumber rest →
    Yields overlong (readValue limit (write indent v ++ rest)) (v, rest)

theorem readItems_write {v : Value} {vs : List Value}
    (hjson : ∀ w ∈ v :: vs, w.IsJson False overlong) (hback : ∀ w ∈ v :: vs, ReadsBack overlong w)
    (indent close limit : Nat) (rest : List Char)
    (hlimit : (write indent v ++ writeItems indent vs).length < limit) :
    Yields overlong (readItems limit
      (write indent v ++ (writeItems indent vs ++ (newLine close ++ ']' :: rest))))
      (v :: vs, rest) := by
  induction vs generalizing v limit with
  | nil =>
    obtain ⟨n, rfl⟩ : ∃ n, limit = n + 1 := ⟨limit - 1, by omega⟩
    simp only [writeItems, List.append_nil, List.nil_append] at hlimit ⊢
    have hv := hback v (by simp) indent n (newLine close ++ ']' :: rest) (by omega)
      (endsNumber_newLine _ _)
    rw [readItems]
    refine hv.bind ?_
    simp only [skipBlanks_newLine, skipBlanks_cons (c := ']') (by decide)]
    exact .inl rfl
  | cons w ws ih =>
    obtain ⟨n, rfl⟩ : ∃ n, limit = n + 1 := ⟨limit - 1, by omega⟩
    simp only [writeItems, List.cons_append, List.append_assoc, List.length_append,
      List.length_cons] at hlimit ⊢
    have hv := hback v (by simp) indent n
      (',' :: (newLine indent ++ (write indent w ++ (writeItems indent ws ++
        (newLine close ++ ']' :: rest))))) (by omega) (endsNumber_comma _)
    have hws := ih (v := w) (fun x hx => hjson x (List.mem_cons_of_mem v hx))
      (fun x hx => hback x (List.mem_cons_of_mem v hx)) n (by rw [List.length_append]; omega)
    rw [readItems]
    refine hv.bind ?_
    simp only [skipBlanks_cons (c := ',') (by decide), skipBlanks_newLine,
      skipBlanks_write (hjson w (by simp))]
    exact hws.bind (.inl rfl)

theorem quotedString_append (s : String) (cs : List Char) :
    quotedString s ++ cs = '"' :: (s.toList.flatMap escapedChar ++ '"' :: cs) := by
  simp [quotedString]

theorem readEntries_entry {v : Value} (hjson : v.IsJson False overlong)
    (hback : ReadsBack overlong v) (k : String) (read : List (String × Value))
    {indent limit : Nat} {more : List Char} (hlimit : (write indent v).length ≤ limit)
    (hmore : EndsNumber more) {result : List (String × Value) × List Char}
    (hnext : Yields overlong (match skipBlanks more with
      | '}' :: rest => .ok (upsert k v read, rest)
      | ',' :: rest => readEntries limit (upsert k v read) (skipBlanks rest)
      | rest => .error (.commaExpected, rest.length)) result) :
    Yields overlong (readEntries (limit + 1) read
      (quotedString k ++ ':' :: ' ' :: (write indent v ++ more))) result := by
  have hblank : skipBlanks (' ' :: (write indent v ++ more)) = write indent v ++ more :=
    skipBlanks_write hjson indent more
  rw [quotedString_append, readEntries, readString_quoted]
  refine Yields.bind (.inl rfl) ?_
  simp only [skipBlanks_cons (c := ':') (by decide), hblank, String.ofList_toList]
  exact (hback indent limit more hlimit hmore).bind hnext

theorem readEntries_write (read : List (String × Value)) {k : String} {v : Value}
    {es : List (String × Value)} (hkeys : ((read ++ (k, v) :: es).map Prod.fst).Nodup)
    (hjson : ∀ e ∈ (k, v) :: es, e.2.IsJson False overlong)
    (hback : ∀ e ∈ (k, v) :: es, ReadsBack overlong e.2)
    (indent close limit : Nat) (rest : List Char)
    (hlimit : (write indent v ++ writeEntries indent es).length < limit) :
    Yields overlong (readEntries limit read (quotedString k ++ ':' :: ' ' :: (write indent v ++
      (writeEntries indent es ++ (newLine close ++ '}' :: rest)))))
      (read ++ (k, v) :: es, rest) := by
  induction es generalizing k v read limit with
  | nil =>
    obtain ⟨n, rfl⟩ : ∃ n, limit = n + 1 := ⟨limit - 1, by omega⟩
    simp only [writeEntries, List.append_nil, List.nil_append] at hlimit ⊢
    have hv : (write indent v).length ≤ n := by omega
    have hput : upsert k v read = read ++ [(k, v)] := upsert_of_notMem (notMem_keys_of_nodup hkeys)
    refine readEntries_entry (hjson (k, v) (by simp)) (hback (k, v) (by simp)) k read hv
      (endsNumber_newLine _ _) ?_
    rw [skipBlanks_newLine, skipBlanks_cons (c := '}') (by decide), hput]
    exact .inl rfl
  | cons e es ih =>
    obtain ⟨n, rfl⟩ : ∃ n, limit = n + 1 := ⟨limit - 1, by omega⟩
    obtain ⟨k', v'⟩ := e
    simp only [writeEntries, List.cons_append, List.append_assoc, List.length_append,
      List.length_cons, List.nil_append] at hlimit ⊢
    have hv : (write indent v).length ≤ n := by omega
    have hput : upsert k v read = read ++ [(k, v)] := upsert_of_notMem (notMem_keys_of_nodup hkeys)
    have hes := ih (read ++ [(k, v)]) (k := k') (v := v') (by simpa using hkeys)
      (fun x hx => hjson x (List.mem_cons_of_mem _ hx))
      (fun x hx => hback x (List.mem_cons_of_mem _ hx)) n (by rw [List.length_append]; omega)
    have hname : ∀ cs, skipBlanks (quotedString k' ++ cs) = quotedString k' ++ cs := fun cs => by
      rw [quotedString_append, skipBlanks_cons (by decide)]
    refine readEntries_entry (hjson (k, v) (by simp)) (hback (k, v) (by simp)) k read hv
      (endsNumber_comma _) ?_
    rw [skipBlanks_cons (c := ',') (by decide), hput]
    simp only [skipBlanks_newLine, hname]
    simpa only [List.append_assoc, List.cons_append, List.nil_append] using hes

theorem readValue_toString (n : Int) (limit : Nat) (rest : List Char) :
    readValue (limit + 1) ((toString n).toList ++ rest) =
      readNumber ((toString n).toList ++ rest) := by
  have hword := readWord?_toString n rest
  obtain ⟨d, ds, hd, h⟩ := toString_cons n
  obtain ⟨hquote, hbracket, hbrace, -⟩ := digit_ne hd
  rcases h with h | h
  · rw [h, List.cons_append] at hword ⊢
    simp only [readValue, hquote, hbracket, hbrace, if_false, hword]
  · rw [h, List.cons_append] at hword ⊢
    simp only [readValue, hword]
    rfl

theorem yields_readNumber {n : Int} (hn : overlong ∨ n.natAbs < 10 ^ digitLimit)
    {rest : List Char} (hrest : EndsNumber rest) :
    Yields overlong (readNumber ((toString n).toList ++ rest)) (.int n, rest) := by
  by_cases hshort : n.natAbs < 10 ^ digitLimit
  · exact .inl (readNumber_toString hshort hrest)
  · exact .inr ⟨hn.resolve_right hshort,
      readNumber_toString_overlong (Nat.not_lt.mp hshort) hrest⟩

theorem readValue_quotedString (s : String) (limit : Nat) (rest : List Char) :
    readValue (limit + 1) (quotedString s ++ rest) = .ok (.text s, rest) := by
  rw [quotedString_append, readValue]
  simp only [if_true, readString_quoted, bind, Except.bind, String.ofList_toList]
  rfl

theorem readValue_bracket {limit : Nat} {c : Char} {cs body : List Char}
    (hbody : skipBlanks cs = c :: body) (hc : c ≠ ']') :
    readValue (limit + 1) ('[' :: cs) =
      readItems limit (c :: body) >>= fun read => pure (.list read.1, read.2) := by
  simp [readValue, hbody, hc]

theorem readValue_brace {limit : Nat} {c : Char} {cs body : List Char}
    (hbody : skipBlanks cs = c :: body) (hc : c ≠ '}') :
    readValue (limit + 1) ('{' :: cs) =
      readEntries limit [] (c :: body) >>= fun read => pure (.table read.1, read.2) := by
  simp [readValue, hbody, hc]

theorem readValue_list {v : Value} {vs : List Value}
    (hjson : ∀ w ∈ v :: vs, w.IsJson False overlong) (hback : ∀ w ∈ v :: vs, ReadsBack overlong w)
    (indent limit : Nat) (rest : List Char)
    (hlimit : (write indent (.list (v :: vs))).length ≤ limit + 1) :
    Yields overlong (readValue (limit + 1) (write indent (.list (v :: vs)) ++ rest))
      (.list (v :: vs), rest) := by
  simp only [write, List.cons_append, List.append_assoc, List.nil_append, List.length_cons,
    List.length_append] at hlimit ⊢
  have hitems := readItems_write hjson hback (indent + 2) indent limit rest
    (by rw [List.length_append]; simp only [newLine, List.length_cons] at hlimit; omega)
  have hblank := skipBlanks_write (hjson v (by simp)) (indent + 2)
    (writeItems (indent + 2) vs ++ (newLine indent ++ ']' :: rest))
  obtain ⟨c, cs, he, -, hc, -⟩ := write_cons (hjson v (by simp)) (indent + 2)
  rw [he, List.cons_append] at hitems hblank ⊢
  rw [readValue_bracket (by rw [skipBlanks_newLine, hblank]) hc]
  exact hitems.bind (.inl rfl)

theorem readValue_table {k : String} {v : Value} {es : List (String × Value)}
    (hkeys : (((k, v) :: es).map Prod.fst).Nodup)
    (hjson : ∀ e ∈ (k, v) :: es, e.2.IsJson False overlong)
    (hback : ∀ e ∈ (k, v) :: es, ReadsBack overlong e.2) (indent limit : Nat) (rest : List Char)
    (hlimit : (write indent (.table ((k, v) :: es))).length ≤ limit + 1) :
    Yields overlong (readValue (limit + 1) (write indent (.table ((k, v) :: es)) ++ rest))
      (.table ((k, v) :: es), rest) := by
  simp only [write, List.cons_append, List.append_assoc, List.nil_append, List.length_cons,
    List.length_append] at hlimit ⊢
  have hentries := readEntries_write [] hkeys hjson hback (indent + 2) indent limit rest
    (by rw [List.length_append]; simp only [newLine, List.length_cons] at hlimit; omega)
  rw [quotedString_append] at hentries ⊢
  rw [readValue_brace (by rw [skipBlanks_newLine, skipBlanks_cons (by decide)]) (by decide)]
  exact hentries.bind (.inl rfl)

theorem readsBack_of_succ {v : Value} (h : v.IsJson False overlong)
    (hread : ∀ indent limit rest, (write indent v).length ≤ limit + 1 → EndsNumber rest →
      Yields overlong (readValue (limit + 1) (write indent v ++ rest)) (v, rest)) :
    ReadsBack overlong v := by
  intro indent limit rest hlimit hrest
  cases limit with
  | zero =>
    obtain ⟨c, cs, he, -⟩ := write_cons h indent
    simp [he] at hlimit
  | succ n => exact hread indent n rest hlimit hrest

/-- Every value that JSON text denotes is read back from its own text. -/
theorem readsBack_of_isJson {v : Value} (h : v.IsJson False overlong) : ReadsBack overlong v := by
  induction h with
  | null => exact readsBack_of_succ .null fun _ _ _ _ _ => .inl rfl
  | bool b => exact readsBack_of_succ (.bool b) fun _ _ _ _ _ => by cases b <;> exact .inl rfl
  | @int n h =>
    refine readsBack_of_succ (.int h) fun _ limit rest _ hrest => ?_
    rw [write, readValue_toString]
    exact yields_readNumber h hrest
  | decimal literal h => exact h.elim
  | text s =>
    exact readsBack_of_succ (.text s) fun _ n rest _ _ => .inl (readValue_quotedString s n rest)
  | @list vs h ih =>
    refine readsBack_of_succ (.list h) fun indent n rest hlimit _ => ?_
    cases vs with
    | nil => exact .inl rfl
    | cons v vs => exact readValue_list h ih indent n rest hlimit
  | @table es hkeys h ih =>
    refine readsBack_of_succ (.table hkeys h) fun indent n rest hlimit _ => ?_
    cases es with
    | nil => exact .inl rfl
    | cons e es => exact readValue_table hkeys h ih indent n rest hlimit

theorem yields_parse_render {v : Value} (h : v.IsJson False overlong) :
    Yields overlong (parse (render v)) v := by
  have hread := readsBack_of_isJson h 0 (2 * (write 0 v).length + 2) [] (by omega) trivial
  have hblank := skipBlanks_write h 0 []
  obtain ⟨c, cs, he, -, -, hmark⟩ := write_cons h 0
  rw [List.append_nil] at hread hblank
  rw [parse, render, String.toList_ofList]
  have hhead : (write 0 v).head? ≠ some '\ufeff' := by simpa [he] using hmark
  simp only [hhead, if_false, hblank]
  rcases hread with hread | ⟨hlong, e, hread⟩
  · rw [hread]
    exact .inl rfl
  · rw [hread]
    exact .inr ⟨hlong, _, rfl⟩

/-- A value that JSON text denotes is what its own text denotes. -/
theorem parse_render {v : Value} (h : v.IsJson False False) : parse (render v) = .ok v :=
  (yields_parse_render h).resolve_right fun hlong => hlong.1

end Json

end ModuleGraph
