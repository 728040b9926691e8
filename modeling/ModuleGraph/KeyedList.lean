/-! Lists of pairs as mappings that remember the order in which their keys came. -/

namespace ModuleGraph

/-- Writes a value under a key, in place if the key is present and at the end otherwise. -/
def upsert {α : Type} (key : String) (value : α) : List (String × α) → List (String × α)
  | [] => [(key, value)]
  | (k, v) :: rest => if k = key then (k, value) :: rest else (k, v) :: upsert key value rest

theorem mem_keys_upsert {α : Type} {key k : String} {value : α} {entries : List (String × α)} :
    k ∈ (upsert key value entries).map Prod.fst ↔ k = key ∨ k ∈ entries.map Prod.fst := by
  induction entries with
  | nil => simp [upsert]
  | cons entry rest ih =>
    obtain ⟨k', v⟩ := entry
    by_cases h : k' = key
    · subst h
      simp [upsert]
    · simp only [upsert, h, if_false, List.map_cons, List.mem_cons, ih]
      constructor
      · rintro (h | h | h)
        · exact .inr (.inl h)
        · exact .inl h
        · exact .inr (.inr h)
      · rintro (h | h | h)
        · exact .inr (.inl h)
        · exact .inl h
        · exact .inr (.inr h)

theorem nodup_keys_upsert {α : Type} {entries : List (String × α)} (key : String) (value : α)
    (h : (entries.map Prod.fst).Nodup) : ((upsert key value entries).map Prod.fst).Nodup := by
  induction entries with
  | nil => simp [upsert]
  | cons entry rest ih =>
    obtain ⟨k, v⟩ := entry
    rw [List.map_cons, List.nodup_cons] at h
    by_cases hk : k = key
    · rw [upsert, if_pos hk, List.map_cons, List.nodup_cons]
      exact h
    · simp only [upsert, hk, if_false, List.map_cons, List.nodup_cons]
      refine ⟨fun hmem => ?_, ih h.2⟩
      rcases mem_keys_upsert.mp hmem with hc | hc
      · exact hk hc
      · exact h.1 hc

theorem eq_or_mem_of_mem_upsert {α : Type} {key : String} {value : α}
    {entries : List (String × α)} {e : String × α} (h : e ∈ upsert key value entries) :
    e = (key, value) ∨ e ∈ entries := by
  induction entries with
  | nil => exact .inl (List.mem_singleton.mp h)
  | cons entry rest ih =>
    obtain ⟨k, v⟩ := entry
    rw [upsert] at h
    split at h
    · rename_i hk
      rcases List.mem_cons.mp h with he | he
      · exact .inl (hk ▸ he)
      · exact .inr (List.mem_cons_of_mem _ he)
    · rcases List.mem_cons.mp h with he | he
      · exact .inr (he ▸ List.mem_cons_self)
      · exact (ih he).imp_right (List.mem_cons_of_mem _)

theorem lookup_upsert {α : Type} (key k : String) (value : α) (entries : List (String × α)) :
    (upsert key value entries).lookup k = if k = key then some value else entries.lookup k := by
  induction entries with
  | nil =>
    by_cases hk : k = key
    · simp [upsert, hk]
    · have hb : (k == key) = false := by simpa using hk
      simp [upsert, hk, List.lookup_cons, hb]
  | cons entry rest ih =>
    obtain ⟨k', v⟩ := entry
    by_cases h : k' = key
    · subst h
      by_cases hk : k = k'
      · simp [upsert, hk]
      · have hb : (k == k') = false := by simpa using hk
        simp only [upsert, if_true, List.lookup_cons, hb, hk, if_false]
    · by_cases hk : k = k'
      · subst hk
        simp [upsert, h]
      · have hb : (k == k') = false := by simpa using hk
        simp only [upsert, h, if_false, List.lookup_cons, hb, ih]

theorem mem_of_lookup {α : Type} {entries : List (String × α)} {key : String} {value : α}
    (h : entries.lookup key = some value) : (key, value) ∈ entries := by
  obtain ⟨pre, post, he, -⟩ := List.lookup_eq_some_iff.mp h
  rw [he]
  exact List.mem_append_right _ List.mem_cons_self

theorem lookup_eq_none_iff_notMem {α : Type} {entries : List (String × α)} {key : String} :
    entries.lookup key = none ↔ key ∉ entries.map Prod.fst := by
  rw [List.lookup_eq_none_iff]
  constructor
  · intro h hmem
    obtain ⟨e, he, rfl⟩ := List.mem_map.mp hmem
    simpa using h e he
  · intro h e he
    have hne : key ≠ e.1 := by
      rintro rfl
      exact h (List.mem_map_of_mem he)
    simpa using hne

theorem lookup_map_snd {α β : Type} (f : α → β) (k : String) (entries : List (String × α)) :
    (entries.map (fun e => (e.1, f e.2))).lookup k = (entries.lookup k).map f := by
  induction entries with
  | nil => rfl
  | cons entry rest ih =>
    obtain ⟨k', v⟩ := entry
    simp only [List.map_cons, List.lookup_cons]
    cases k == k' <;> simp [ih]

theorem lookup_map_key {α β : Type} (f : String → β) (k : String) (entries : List (String × α)) :
    (entries.map (fun e => (e.1, f e.1))).lookup k = (entries.lookup k).map (fun _ => f k) := by
  induction entries with
  | nil => rfl
  | cons entry rest ih =>
    obtain ⟨k', v⟩ := entry
    by_cases hk : k = k'
    · simp [hk]
    · have hb : (k == k') = false := by simpa using hk
      simp only [List.map_cons, List.lookup_cons, hb, ih]

theorem lookup_map_mk {α : Type} (f : String → α) (k : String) (keys : List String) :
    (keys.map (fun key => (key, f key))).lookup k = if k ∈ keys then some (f k) else none := by
  induction keys with
  | nil => rfl
  | cons key keys ih =>
    by_cases hk : k = key
    · simp [hk]
    · have hb : (k == key) = false := by simpa using hk
      simp [List.lookup_cons, hb, ih, hk]

theorem map_upsert {α β : Type} (f : α → β) (key : String) (value : α)
    (entries : List (String × α)) :
    (upsert key value entries).map (fun e => (e.1, f e.2)) =
      upsert key (f value) (entries.map (fun e => (e.1, f e.2))) := by
  induction entries with
  | nil => rfl
  | cons entry rest ih =>
    obtain ⟨k, v⟩ := entry
    by_cases h : k = key
    · simp [upsert, h]
    · simp [upsert, h, ih]

section Position

variable {α : Type} {key : String} {value : α} {pre post : List (String × α)}

theorem lookup_append_of_notMem (h : key ∉ pre.map Prod.fst) :
    (pre ++ post).lookup key = post.lookup key := by
  induction pre with
  | nil => rfl
  | cons entry rest ih =>
    obtain ⟨k, v⟩ := entry
    rw [List.map_cons, List.mem_cons, not_or] at h
    have hb : (key == k) = false := by simpa using h.1
    simp only [List.cons_append, List.lookup_cons, hb, ih h.2]

theorem upsert_append_of_notMem (h : key ∉ pre.map Prod.fst) :
    upsert key value (pre ++ post) = pre ++ upsert key value post := by
  induction pre with
  | nil => rfl
  | cons entry rest ih =>
    obtain ⟨k, v⟩ := entry
    rw [List.map_cons, List.mem_cons, not_or] at h
    simp [upsert, Ne.symm h.1, ih h.2]

/-- A new key comes last. -/
theorem upsert_of_notMem (h : key ∉ pre.map Prod.fst) :
    upsert key value pre = pre ++ [(key, value)] := by
  have happend : upsert key value (pre ++ []) = pre ++ upsert key value [] :=
    upsert_append_of_notMem h
  rwa [List.append_nil, upsert] at happend

theorem notMem_keys_of_nodup {entry : String × α}
    (h : ((pre ++ entry :: post).map Prod.fst).Nodup) : entry.1 ∉ pre.map Prod.fst := by
  rw [List.map_append, List.nodup_append] at h
  exact fun hmem => h.2.2 entry.1 hmem entry.1 (by simp) rfl

theorem lookup_eq_some_iff_mem {entries : List (String × α)} (h : (entries.map Prod.fst).Nodup) :
    entries.lookup key = some value ↔ (key, value) ∈ entries := by
  refine ⟨mem_of_lookup, fun hmem => ?_⟩
  obtain ⟨before, after, rfl⟩ := List.append_of_mem hmem
  rw [lookup_append_of_notMem (notMem_keys_of_nodup h), List.lookup_cons_self]

end Position

end ModuleGraph
