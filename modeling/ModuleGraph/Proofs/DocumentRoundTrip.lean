import ModuleGraph.Document
import ModuleGraph.KeyedList
import ModuleGraph.Proofs.Traversal

/-! A saved module graph is the graph that is loaded. Records become tables that leave out
absent fields, tables become text, and each of the two steps is undone by its reader. -/

namespace ModuleGraph

section Fields

variable {key k : String} {v : Value}

@[simp]
theorem lookup_optionalField_of_ne (h : key ≠ k) : (optionalField k v).lookup key = none := by
  have hb : (key == k) = false := by simpa using h
  unfold optionalField
  split
  · rfl
  · rw [List.lookup_cons, hb, List.lookup_nil]

/-- A field that was left out is read as null. -/
@[simp]
theorem getD_lookup_optionalField : ((optionalField k v).lookup k).getD .null = v := by
  unfold optionalField
  split
  · rfl
  · simp

end Fields

namespace Document

@[simp]
theorem items_list (vs : List Value) : items (.list vs) = .ok vs := rfl

@[simp]
theorem optional_table (es : List (String × Value)) (key : String) (default : Value) :
    optional (.table es) key default = (es.lookup key).getD default := rfl

theorem readProvider_toValue (p : ProviderEntry) : readProvider p.toValue = .ok p := by
  simp [readProvider, ProviderEntry.toValue, required, itemsOf, List.lookup_cons,
    List.lookup_append, bind, Except.bind, pure, Except.pure]

theorem readSnapshot_toValue (s : SnapshotEntry) : readSnapshot s.toValue = .ok s := by
  have hproviders := mapM_map_eq_pure fun p (_ : p ∈ s.providers) => readProvider_toValue p
  simp [readSnapshot, SnapshotEntry.toValue, required, itemsOf, List.lookup_cons, hproviders,
    bind, Except.bind, pure, Except.pure]

theorem readImport_toValue (i : ImportEntry) : readImport i.toValue = .ok i := by
  obtain ⟨name, path, isAsync, isForwardReference, dependencies, snapshot⟩ := i
  cases snapshot with
  | none =>
    simp [readImport, ImportEntry.toValue, required, itemsOf, List.lookup_cons,
      List.lookup_append, bind, Except.bind, pure, Except.pure]
  | some s =>
    have hs : some <$> readSnapshot s.toValue = .ok (some s) := by
      rw [readSnapshot_toValue]
      rfl
    -- A snapshot is a table, which the reader tells from null.
    rw [SnapshotEntry.toValue] at hs
    simp [readImport, ImportEntry.toValue, SnapshotEntry.toValue, required, itemsOf,
      List.lookup_cons, List.lookup_append, hs, bind, Except.bind, pure, Except.pure]

theorem readModule_toValue (m : ModuleEntry) : readModule m.toValue = .ok m := by
  have himports := mapM_map_eq_pure fun i (_ : i ∈ m.imports) => readImport_toValue i
  have hproviders := mapM_map_eq_pure fun p (_ : p ∈ m.providers) => readProvider_toValue p
  simp [readModule, ModuleEntry.toValue, required, itemsOf, List.lookup_cons, List.lookup_append,
    himports, hproviders, bind, Except.bind, pure, Except.pure]

/-- The names of a document may be names, and no two of them are the same. -/
structure WellNamed (d : Document) : Prop where
  atomic : ∀ name ∈ d.map Prod.fst, name.isAtomic = true
  distinct : (d.map Prod.fst).Pairwise fun a b => sameName a b = false

theorem put_new {name : Value} {d : Document}
    (h : ∀ k ∈ d.map Prod.fst, sameName k name = false) (m : ModuleEntry) :
    put name m d = d ++ [(name, m)] := by
  induction d with
  | nil => rfl
  | cons e d ih =>
    rw [List.map_cons, List.forall_mem_cons] at h
    rw [put, h.1, ih h.2]
    rfl

theorem readPair_new {name : Value} {d : Document} (hatomic : name.isAtomic = true)
    (h : ∀ k ∈ d.map Prod.fst, sameName k name = false) (m : ModuleEntry) :
    readPair d (.list [name, m.toValue]) = .ok (d ++ [(name, m)]) := by
  rw [← put_new h m]
  simp [readPair, readModule_toValue, hatomic, bind, Except.bind, pure, Except.pure]

theorem foldlM_readPair (read : Document) {d : Document} (h : WellNamed (read ++ d)) :
    (d.map (fun e => Value.list [e.1, e.2.toValue])).foldlM readPair read = .ok (read ++ d) := by
  induction d generalizing read with
  | nil => simp [pure, Except.pure]
  | cons e d ih =>
    have hatomic := h.atomic
    have hdistinct := h.distinct
    rw [List.map_append, List.map_cons] at hatomic hdistinct
    have hnew : ∀ k ∈ read.map Prod.fst, sameName k e.1 = false :=
      fun k hk => (List.pairwise_append.mp hdistinct).2.2 k hk e.1 List.mem_cons_self
    have hpair := readPair_new (hatomic e.1 (by simp)) hnew e.2
    have hrest := ih (read ++ [e]) (by rwa [List.append_assoc, List.singleton_append])
    simp only [List.map_cons, List.foldlM_cons, hpair, bind, Except.bind]
    simpa using hrest

theorem ofValue_toValue {d : Document} (h : d.WellNamed) : ofValue d.toValue = .ok d := by
  have hread := foldlM_readPair [] h
  simpa [ofValue, toValue, bind, Except.bind] using hread

end Document

@[simp]
theorem Value.text?_text (s : String) : (Value.text s).text? = some s := rfl

@[simp]
theorem Value.bool?_bool (b : Bool) : (Value.bool b).bool? = some b := rfl

@[simp]
theorem Value.int?_int (n : Int) : (Value.int n).int? = some n := rfl

@[simp]
theorem mapM_text? (ss : List String) : (texts ss).mapM Value.text? = some ss :=
  mapM_map_eq_pure fun _ _ => rfl

@[simp]
theorem optionalText?_optionalText (s : Option String) :
    (optionalText s).optionalText? = some s := by
  cases s <;> rfl

theorem ProviderRecord.record?_entry (p : ProviderRecord) : p.entry.record? = some p := by
  have hinject : p.entry.inject.optionalTexts? = some p.inject := by
    cases hp : p.inject with
    | none => simp [entry, hp, Value.optionalTexts?]
    | some tokens => simp [entry, hp, Value.optionalTexts?]
  simp only [ProviderEntry.record?, hinject]
  simp [entry]

theorem Snapshot.record?_entry (s : Snapshot) : s.entry.record? = some s := by
  have hproviders := mapM_map_eq_pure fun p (_ : p ∈ s.providers) => p.record?_entry
  simp [SnapshotEntry.record?, entry, hproviders]

theorem ImportRecord.record?_entry (i : ImportRecord) : i.entry.record? = some i := by
  obtain ⟨name, path, isAsync, isForwardReference, dependencies, snapshot⟩ := i
  cases snapshot with
  | none => simp [ImportEntry.record?, entry]
  | some s => simp [ImportEntry.record?, entry, s.record?_entry]

theorem ModuleRecord.record?_entry (m : ModuleRecord) : m.entry.record? = some m := by
  have himports := mapM_map_eq_pure fun i (_ : i ∈ m.imports) => i.record?_entry
  have hproviders := mapM_map_eq_pure fun p (_ : p ∈ m.providers) => p.record?_entry
  simp [ModuleEntry.record?, entry, himports, hproviders]

namespace ModuleMap

theorem entries_foldl_insert (es : List (String × ModuleRecord)) (m : ModuleMap)
    (h : ((m.entries ++ es).map Prod.fst).Nodup) :
    (es.foldl (fun m e => m.insert e.1 e.2) m).entries = m.entries ++ es := by
  induction es generalizing m with
  | nil => simp
  | cons e es ih =>
    have hinsert : (m.insert e.1 e.2).entries = m.entries ++ [e] :=
      upsert_of_notMem (notMem_keys_of_nodup h)
    rw [List.foldl_cons, ih _ (by simpa [hinsert] using h), hinsert]
    simp

theorem ofList_entries (m : ModuleMap) : ofList m.entries = m :=
  ModuleMap.ext (entries_foldl_insert m.entries empty m.nodup)

theorem modules?_document (m : ModuleMap) : m.document.modules? = some m := by
  have hpairs : m.document.mapM (fun e => do return (← e.1.text?, ← e.2.record?)) =
      some m.entries :=
    mapM_map_eq_pure fun e _ => by simp [e.2.record?_entry]
  rw [Document.modules?, hpairs]
  exact congrArg some m.ofList_entries

theorem wellNamed_document (m : ModuleMap) : m.document.WellNamed := by
  have hnames : m.document.map Prod.fst = m.names.map Value.text := by
    simp [document, names]
  constructor
  · rw [hnames]
    exact List.forall_mem_map.mpr fun _ _ => rfl
  · rw [hnames, List.pairwise_map]
    refine m.nodup.imp fun hne => ?_
    simpa [Document.sameName] using hne

end ModuleMap

end ModuleGraph
