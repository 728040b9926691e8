import ModuleGraph.Proofs.DocumentRoundTrip
import ModuleGraph.Proofs.JsonSoundness

/-! Documents that JSON text can hold. Whatever is read from a value of JSON text holds values of
JSON text only, down to the snapshots of its imports, and so does the document of every module
graph. -/

namespace ModuleGraph

open Json (digitLimit)

section Saving

variable {decimals overlong : Prop}

theorem isJson_optionalText (s : Option String) : (optionalText s).IsJson decimals overlong := by
  cases s with
  | none => exact .null
  | some s => exact .text s

theorem isJson_texts (ss : List String) : ∀ v ∈ texts ss, v.IsJson decimals overlong :=
  List.forall_mem_map.mpr fun s _ => .text s

theorem optionalField_sublist (key : String) (v : Value) :
    (optionalField key v).Sublist [(key, v)] := by
  unfold optionalField
  split
  · exact List.nil_sublist _
  · exact List.Sublist.refl _

/-- A table that leaves out fields has no key twice if the full table has none. -/
theorem isJson_table_of_sublist {es full : List (String × Value)} (h : es.Sublist full)
    (hkeys : (full.map Prod.fst).Nodup) (hvalues : ∀ e ∈ full, e.2.IsJson decimals overlong) :
    (Value.table es).IsJson decimals overlong :=
  .table (hkeys.sublist (h.map Prod.fst)) fun e he => hvalues e (h.subset he)

structure ProviderEntry.IsJson (decimals overlong : Prop) (p : ProviderEntry) : Prop where
  name : p.name.IsJson decimals overlong
  kind : p.kind.IsJson decimals overlong
  dependencies : ∀ v ∈ p.dependencies, v.IsJson decimals overlong
  isInjectable : p.isInjectable.IsJson decimals overlong
  provide : p.provide.IsJson decimals overlong
  useClass : p.useClass.IsJson decimals overlong
  useValue : p.useValue.IsJson decimals overlong
  useFactory : p.useFactory.IsJson decimals overlong
  inject : p.inject.IsJson decimals overlong

structure SnapshotEntry.IsJson (decimals overlong : Prop) (s : SnapshotEntry) : Prop where
  name : s.name.IsJson decimals overlong
  providers : ∀ p ∈ s.providers, p.IsJson decimals overlong
  controllers : ∀ v ∈ s.controllers, v.IsJson decimals overlong

structure ImportEntry.IsJson (decimals overlong : Prop) (i : ImportEntry) : Prop where
  name : i.name.IsJson decimals overlong
  path : i.path.IsJson decimals overlong
  isAsync : i.isAsync.IsJson decimals overlong
  isForwardReference : i.isForwardReference.IsJson decimals overlong
  dependencies : ∀ v ∈ i.dependencies, v.IsJson decimals overlong
  snapshot : ∀ s, i.snapshot = some s → s.IsJson decimals overlong

structure ModuleEntry.IsJson (decimals overlong : Prop) (m : ModuleEntry) : Prop where
  name : m.name.IsJson decimals overlong
  filePath : m.filePath.IsJson decimals overlong
  imports : ∀ i ∈ m.imports, i.IsJson decimals overlong
  exports : ∀ v ∈ m.exports, v.IsJson decimals overlong
  providers : ∀ p ∈ m.providers, p.IsJson decimals overlong
  controllers : ∀ v ∈ m.controllers, v.IsJson decimals overlong
  entityCount : m.entityCount.IsJson decimals overlong

def Document.IsJson (decimals overlong : Prop) (d : Document) : Prop :=
  ∀ e ∈ d, e.1.IsJson decimals overlong ∧ e.2.IsJson decimals overlong

theorem ProviderEntry.IsJson.toValue {p : ProviderEntry} (h : p.IsJson decimals overlong) :
    p.toValue.IsJson decimals overlong := by
  refine isJson_table_of_sublist
    ((((((List.Sublist.refl _).append (optionalField_sublist _ _)).append
      (optionalField_sublist _ _)).append (optionalField_sublist _ _)).append
      (optionalField_sublist _ _)).append (optionalField_sublist _ _)) (by simp) ?_
  simp only [List.cons_append, List.nil_append, List.forall_mem_cons]
  exact ⟨h.name, h.kind, .list h.dependencies, h.isInjectable, h.provide, h.useClass,
    h.useValue, h.useFactory, h.inject, by simp⟩

theorem SnapshotEntry.IsJson.toValue {s : SnapshotEntry} (h : s.IsJson decimals overlong) :
    s.toValue.IsJson decimals overlong := by
  refine isJson_table_of_sublist (List.Sublist.refl _) (by simp) ?_
  simp only [List.forall_mem_cons]
  exact ⟨h.name, .list (List.forall_mem_map.mpr fun p hp => (h.providers p hp).toValue),
    .list h.controllers, by simp⟩

theorem ImportEntry.IsJson.toValue {i : ImportEntry} (h : i.IsJson decimals overlong) :
    i.toValue.IsJson decimals overlong := by
  obtain ⟨hname, hpath, hasync, hforward, hdependencies, hsnapshot⟩ := h
  obtain ⟨name, path, isAsync, isForwardReference, dependencies, snapshot⟩ := i
  have hfields := ((((List.Sublist.refl [("name", name)]).append
    (optionalField_sublist "path" path)).append (List.Sublist.refl [("isAsync", isAsync),
      ("isForwardReference", isForwardReference), ("dependencies", .list dependencies)])))
  cases snapshot with
  | none =>
    refine isJson_table_of_sublist (hfields.append (List.Sublist.refl _)) (by simp) ?_
    simp only [List.cons_append, List.nil_append, List.forall_mem_cons]
    exact ⟨hname, hpath, hasync, hforward, .list hdependencies, by simp⟩
  | some s =>
    refine isJson_table_of_sublist (hfields.append (List.Sublist.refl _)) (by simp) ?_
    simp only [List.cons_append, List.nil_append, List.forall_mem_cons]
    exact ⟨hname, hpath, hasync, hforward, .list hdependencies, (hsnapshot s rfl).toValue,
      by simp⟩

theorem ModuleEntry.IsJson.toValue {m : ModuleEntry} (h : m.IsJson decimals overlong) :
    m.toValue.IsJson decimals overlong := by
  refine isJson_table_of_sublist
    (((List.Sublist.refl _).append (optionalField_sublist _ _)).append (List.Sublist.refl _))
    (by simp) ?_
  simp only [List.cons_append, List.nil_append, List.forall_mem_cons]
  exact ⟨h.name, h.filePath,
    .list (List.forall_mem_map.mpr fun i hi => (h.imports i hi).toValue), .list h.exports,
    .list (List.forall_mem_map.mpr fun p hp => (h.providers p hp).toValue), .list h.controllers,
    h.entityCount, by simp⟩

theorem Document.IsJson.toValue {d : Document} (h : d.IsJson decimals overlong) :
    d.toValue.IsJson decimals overlong := by
  refine .list (List.forall_mem_map.mpr fun e he => .list ?_)
  simp only [List.forall_mem_cons]
  exact ⟨(h e he).1, (h e he).2.toValue, by simp⟩

theorem ProviderRecord.isJson_entry (p : ProviderRecord) : p.entry.IsJson decimals overlong where
  name := .text _
  kind := .text _
  dependencies := isJson_texts _
  isInjectable := .bool _
  provide := isJson_optionalText _
  useClass := isJson_optionalText _
  useValue := isJson_optionalText _
  useFactory := isJson_optionalText _
  inject := by
    cases hp : p.inject with
    | none => simpa [entry, hp] using Value.IsJson.null
    | some tokens => simpa [entry, hp] using Value.IsJson.list (isJson_texts tokens)

theorem Snapshot.isJson_entry (s : Snapshot) : s.entry.IsJson decimals overlong where
  name := .text _
  providers := List.forall_mem_map.mpr fun p _ => p.isJson_entry
  controllers := isJson_texts _

theorem ImportRecord.isJson_entry (i : ImportRecord) : i.entry.IsJson decimals overlong where
  name := .text _
  path := isJson_optionalText _
  isAsync := .bool _
  isForwardReference := .bool _
  dependencies := isJson_texts _
  snapshot := by
    intro s hs
    obtain ⟨t, -, rfl⟩ := Option.map_eq_some_iff.mp hs
    exact t.isJson_entry

theorem ModuleRecord.isJson_entry {m : ModuleRecord}
    (h : overlong ∨ m.entityCount.natAbs < 10 ^ digitLimit) :
    m.entry.IsJson decimals overlong where
  name := .text _
  filePath := isJson_optionalText _
  imports := List.forall_mem_map.mpr fun i _ => i.isJson_entry
  exports := isJson_texts _
  providers := List.forall_mem_map.mpr fun p _ => p.isJson_entry
  controllers := isJson_texts _
  entityCount := .int h

theorem ModuleMap.isJson_document {m : ModuleMap}
    (h : ∀ r ∈ m.records, overlong ∨ r.entityCount.natAbs < 10 ^ digitLimit) :
    m.document.IsJson decimals overlong :=
  List.forall_mem_map.mpr fun e he =>
    ⟨.text _, ModuleRecord.isJson_entry (h e.2 (List.mem_map_of_mem he))⟩

end Saving

section Loading

variable {decimals overlong : Prop} {v : Value}

theorem isJson_of_items {vs : List Value} (hv : v.IsJson decimals overlong)
    (h : Document.items v = .ok vs) : ∀ w ∈ vs, w.IsJson decimals overlong := by
  cases hv with
  | list hlist =>
    rw [Document.items_list, Except.ok.injEq] at h
    exact h ▸ hlist
  | text s =>
    simp only [Document.items, Value.items?, Except.ok.injEq] at h
    exact h ▸ List.forall_mem_map.mpr fun c _ => .text _
  | table hkeys htable =>
    simp only [Document.items, Value.items?, Except.ok.injEq] at h
    exact h ▸ List.forall_mem_map.mpr fun e _ => .text _
  | _ => simp [Document.items, Value.items?] at h

theorem isJson_of_lookup {es : List (String × Value)} {key : String} {found : Value}
    (h : ∀ e ∈ es, e.2.IsJson decimals overlong) (hfound : es.lookup key = some found) :
    found.IsJson decimals overlong :=
  h (key, found) (mem_of_lookup hfound)

theorem isJson_of_required {key : String} {found : Value} (hv : v.IsJson decimals overlong)
    (h : Document.required v key = .ok found) : found.IsJson decimals overlong := by
  cases hv with
  | @table es hkeys htable =>
    rw [Document.required] at h
    cases hfound : es.lookup key with
    | none => simp [hfound] at h
    | some w =>
      simp only [hfound, Except.ok.injEq] at h
      exact h ▸ isJson_of_lookup htable hfound
  | _ => simp [Document.required] at h

theorem isJson_optional (hv : v.IsJson decimals overlong) (key : String) {default : Value}
    (hdefault : default.IsJson decimals overlong) :
    (Document.optional v key default).IsJson decimals overlong := by
  cases hv with
  | @table es hkeys htable =>
    rw [Document.optional_table]
    cases hfound : es.lookup key with
    | none => exact hdefault
    | some found => exact isJson_of_lookup htable hfound
  | _ => exact hdefault

theorem isJson_of_itemsOf {key : String} {vs : List Value} (hv : v.IsJson decimals overlong)
    (h : Document.itemsOf v key = .ok vs) : ∀ w ∈ vs, w.IsJson decimals overlong :=
  isJson_of_items (isJson_optional hv key (.list (by simp))) h

theorem isJson_of_readProvider {p : ProviderEntry} (hv : v.IsJson decimals overlong)
    (h : Document.readProvider v = .ok p) : p.IsJson decimals overlong := by
  unfold Document.readProvider at h
  obtain ⟨name, hname, h⟩ := bind_eq_ok.mp h
  obtain ⟨kind, hkind, h⟩ := bind_eq_ok.mp h
  obtain ⟨dependencies, hdependencies, h⟩ := bind_eq_ok.mp h
  rw [pure_eq_ok] at h
  subst h
  exact {
    name := isJson_of_required hv hname
    kind := isJson_of_required hv hkind
    dependencies := isJson_of_itemsOf hv hdependencies
    isInjectable := isJson_optional hv _ (.bool false)
    provide := isJson_optional hv _ .null
    useClass := isJson_optional hv _ .null
    useValue := isJson_optional hv _ .null
    useFactory := isJson_optional hv _ .null
    inject := isJson_optional hv _ .null }

theorem isJson_of_mapM_readProvider {key : String} {vs : List Value} {ps : List ProviderEntry}
    (hv : v.IsJson decimals overlong) (hvs : Document.itemsOf v key = .ok vs)
    (h : vs.mapM Document.readProvider = .ok ps) : ∀ p ∈ ps, p.IsJson decimals overlong := by
  intro p hp
  obtain ⟨w, hw, hread⟩ := mem_of_mapM_eq_ok h p hp
  exact isJson_of_readProvider (isJson_of_itemsOf hv hvs w hw) hread

theorem isJson_of_readSnapshot {s : SnapshotEntry} (hv : v.IsJson decimals overlong)
    (h : Document.readSnapshot v = .ok s) : s.IsJson decimals overlong := by
  unfold Document.readSnapshot at h
  obtain ⟨name, hname, h⟩ := bind_eq_ok.mp h
  obtain ⟨items, hitems, h⟩ := bind_eq_ok.mp h
  obtain ⟨providers, hproviders, h⟩ := bind_eq_ok.mp h
  obtain ⟨controllers, hcontrollers, h⟩ := bind_eq_ok.mp h
  rw [pure_eq_ok] at h
  subst h
  exact ⟨isJson_of_required hv hname, isJson_of_mapM_readProvider hv hitems hproviders,
    isJson_of_itemsOf hv hcontrollers⟩

theorem isJson_of_readImport {i : ImportEntry} (hv : v.IsJson decimals overlong)
    (h : Document.readImport v = .ok i) : i.IsJson decimals overlong := by
  have hmodule := isJson_optional hv "module" .null
  have hfields : ∀ {name : Value} {dependencies : List Value} {snapshot : Option SnapshotEntry},
      Document.required v "name" = .ok name →
      Document.itemsOf v "dependencies" = .ok dependencies →
      (∀ s, snapshot = some s → s.IsJson decimals overlong) →
      ImportEntry.IsJson decimals overlong
        { name, dependencies, snapshot
          path := Document.optional v "path" .null
          isAsync := Document.optional v "isAsync" (.bool false)
          isForwardReference := Document.optional v "isForwardReference" (.bool false) } :=
    fun hname hdependencies hsnapshot =>
      ⟨isJson_of_required hv hname, isJson_optional hv _ .null, isJson_optional hv _ (.bool false),
        isJson_optional hv _ (.bool false), isJson_of_itemsOf hv hdependencies, hsnapshot⟩
  unfold Document.readImport at h
  dsimp only at h
  split at h
  · obtain ⟨name, hname, h⟩ := bind_eq_ok.mp h
    obtain ⟨dependencies, hdependencies, h⟩ := bind_eq_ok.mp h
    split at h
    · obtain ⟨snapshot, hsnapshot, h⟩ := bind_eq_ok.mp h
      rw [pure_eq_ok] at hsnapshot h
      subst h hsnapshot
      exact hfields hname hdependencies (by simp)
    · obtain ⟨snapshot, hsnapshot, h⟩ := bind_eq_ok.mp h
      obtain ⟨t, hread, rfl⟩ := map_eq_ok.mp hsnapshot
      rw [pure_eq_ok] at h
      subst h
      refine hfields hname hdependencies fun s hs => ?_
      exact Option.some.inj hs ▸ isJson_of_readSnapshot hmodule hread
  · obtain ⟨_, hthrow, -⟩ := bind_eq_ok.mp h
    exact absurd hthrow throw_ne_ok

theorem isJson_of_readModule {m : ModuleEntry} (hv : v.IsJson decimals overlong)
    (h : Document.readModule v = .ok m) : m.IsJson decimals overlong := by
  unfold Document.readModule at h
  obtain ⟨name, hname, h⟩ := bind_eq_ok.mp h
  obtain ⟨importItems, himportItems, h⟩ := bind_eq_ok.mp h
  obtain ⟨imports, himports, h⟩ := bind_eq_ok.mp h
  obtain ⟨exports, hexports, h⟩ := bind_eq_ok.mp h
  obtain ⟨providerItems, hproviderItems, h⟩ := bind_eq_ok.mp h
  obtain ⟨providers, hproviders, h⟩ := bind_eq_ok.mp h
  obtain ⟨controllers, hcontrollers, h⟩ := bind_eq_ok.mp h
  rw [pure_eq_ok] at h
  subst h
  have hzero : (Value.int 0).IsJson decimals overlong := .int (.inr (by
    rw [Int.natAbs_zero]
    exact Nat.pow_pos (by decide)))
  refine ⟨isJson_of_required hv hname, isJson_optional hv _ .null, fun i hi => ?_,
    isJson_of_itemsOf hv hexports, isJson_of_mapM_readProvider hv hproviderItems hproviders,
    isJson_of_itemsOf hv hcontrollers, isJson_optional hv _ hzero⟩
  obtain ⟨w, hw, hread⟩ := mem_of_mapM_eq_ok himports i hi
  exact isJson_of_readImport (isJson_of_itemsOf hv himportItems w hw) hread

end Loading

namespace Document

/-- The pair that an item of a document is read as: a name and a module. -/
def Reads (item : Value) (pair : Value × ModuleEntry) : Prop :=
  ∃ raw, items item = .ok [pair.1, raw] ∧ readModule raw = .ok pair.2 ∧ pair.1.isAtomic = true

/-- Puts pairs one after the other. -/
def putAll (d : Document) (pairs : List (Value × ModuleEntry)) : Document :=
  pairs.foldl (fun d e => put e.1 e.2 d) d

theorem exists_reads_of_readPair {d d' : Document} {item : Value}
    (h : readPair d item = .ok d') : ∃ pair, Reads item pair ∧ d' = put pair.1 pair.2 d := by
  unfold readPair at h
  obtain ⟨vs, hvs, h⟩ := bind_eq_ok.mp h
  split at h
  · rename_i name raw
    obtain ⟨m, hm, h⟩ := bind_eq_ok.mp h
    split at h
    · rename_i hatomic
      rw [pure_eq_ok] at h
      exact ⟨(name, m), ⟨raw, hvs, hm, hatomic⟩, h.symm⟩
    · exact absurd h throw_ne_ok
  · exact absurd h throw_ne_ok

theorem exists_reads_of_foldlM {vs : List Value} {d d' : Document}
    (h : vs.foldlM readPair d = .ok d') :
    ∃ pairs, List.Forall₂ Reads vs pairs ∧ d' = d.putAll pairs := by
  induction vs generalizing d with
  | nil =>
    rw [List.foldlM_nil, pure_eq_ok] at h
    exact ⟨[], .nil, h.symm⟩
  | cons v vs ih =>
    rw [List.foldlM_cons] at h
    obtain ⟨read, hread, h⟩ := bind_eq_ok.mp h
    obtain ⟨pair, hpair, rfl⟩ := exists_reads_of_readPair hread
    obtain ⟨pairs, hpairs, rfl⟩ := ih h
    exact ⟨pair :: pairs, .cons hpair hpairs, rfl⟩

/-- A document that is loaded has the pairs of the text, put one after the other. -/
theorem exists_reads_of_load {text : String} {d : Document} (h : load text = .ok d) :
    ∃ v vs pairs, Json.parse text = .ok v ∧ items v = .ok vs ∧ List.Forall₂ Reads vs pairs ∧
      d = putAll [] pairs := by
  unfold load at h
  split at h
  · rename_i v hparse
    obtain ⟨vs, hvs, h⟩ := bind_eq_ok.mp h
    obtain ⟨pairs, hpairs, hd⟩ := exists_reads_of_foldlM h
    exact ⟨v, vs, pairs, hparse, hvs, hpairs, hd⟩
  · simp at h

theorem IsJson.put {decimals overlong : Prop} {d : Document} (h : d.IsJson decimals overlong)
    {name : Value} {m : ModuleEntry} (hname : name.IsJson decimals overlong)
    (hm : m.IsJson decimals overlong) : (put name m d).IsJson decimals overlong := by
  induction d with
  | nil => exact List.forall_mem_singleton.mpr ⟨hname, hm⟩
  | cons e d ih =>
    have hd := List.forall_mem_cons.mp h
    rw [Document.put]
    split
    · exact List.forall_mem_cons.mpr ⟨⟨hd.1.1, hm⟩, hd.2⟩
    · exact List.forall_mem_cons.mpr ⟨hd.1, ih hd.2⟩

theorem IsJson.putAll {decimals overlong : Prop} {pairs d : Document}
    (h : d.IsJson decimals overlong) (hpairs : pairs.IsJson decimals overlong) :
    (d.putAll pairs).IsJson decimals overlong := by
  induction pairs generalizing d with
  | nil => exact h
  | cons e pairs ih =>
    have he := List.forall_mem_cons.mp hpairs
    exact ih (h.put he.1.1 he.1.2) he.2

theorem isJson_of_reads {decimals overlong : Prop} {vs : List Value}
    {pairs : List (Value × ModuleEntry)} (h : List.Forall₂ Reads vs pairs)
    (hvs : ∀ v ∈ vs, v.IsJson decimals overlong) : IsJson decimals overlong pairs := by
  induction h with
  | nil => exact fun _ he => absurd he List.not_mem_nil
  | cons hread _ ih =>
    rw [List.forall_mem_cons] at hvs
    obtain ⟨raw, hitems, hm, -⟩ := hread
    have hjson := isJson_of_items hvs.1 hitems
    simp only [List.forall_mem_cons] at hjson
    exact List.forall_mem_cons.mpr ⟨⟨hjson.1, isJson_of_readModule hjson.2.1 hm⟩, ih hvs.2⟩

theorem isJson_of_load {decimals overlong : Prop} {text : String} {d : Document} {v : Value}
    (hparse : Json.parse text = .ok v) (hv : v.IsJson decimals overlong)
    (h : load text = .ok d) : d.IsJson decimals overlong := by
  obtain ⟨w, vs, pairs, hparse', hvs, hpairs, rfl⟩ := exists_reads_of_load h
  rw [hparse, Except.ok.injEq] at hparse'
  subst hparse'
  have hempty : IsJson decimals overlong [] := fun _ he => absurd he List.not_mem_nil
  exact hempty.putAll (isJson_of_reads hpairs (isJson_of_items hv hvs))

end Document

end ModuleGraph
