import ModuleGraph.Proofs.CanonicalName
import ModuleGraph.Proofs.Sharing

/-! Linking in place, one module after the other, gives what two passes over the whole graph
give: first every dependency is written by its canonical name, then every import is pointed
to the module it names. It makes no difference that snapshots are taken before the module
they show is linked, since they hold the cells that linking changes. -/

namespace ModuleGraph

def ModuleRecord.relinkProviders (rename : String → String) (m : ModuleRecord) : ModuleRecord :=
  { m with providers := m.providers.map (·.relink rename) }

namespace ModuleMap

/-- The first pass: every dependency by the name that `rename` gives it. -/
def relinkDependencies (rename : String → String) (m : ModuleMap) : ModuleMap :=
  m.mapRecords (·.relinkProviders rename)

/-- Both passes. Imports are linked to modules whose dependencies are linked already. -/
def linkWith (rename : String → String) (m : ModuleMap) : ModuleMap :=
  (m.relinkDependencies rename).mapRecords (·.relinkImports (m.relinkDependencies rename))

def linkInTwoPasses (m : ModuleMap) : ModuleMap := m.linkWith m.canonicalName

end ModuleMap

section Imports

variable {α : Type}

def ModuleRecord.face (m : ModuleRecord α) : Option String × Snapshot α :=
  (m.filePath, m.snapshot)

theorem ImportRecord.relink_congr {m m' : ModuleMap α} {i : ImportRecord α}
    (h : (m.find? i.name).map (·.face) = (m'.find? i.name).map (·.face)) :
    i.relink m = i.relink m' := by
  have hpath := congrArg (·.bind (·.1)) h
  have hsnapshot := congrArg (·.map (·.2)) h
  simp only [Option.bind_map, Option.map_map, Function.comp_def, ModuleRecord.face]
    at hpath hsnapshot
  simp only [ImportRecord.relink, hpath, hsnapshot]

theorem ModuleRecord.relinkImports_congr {m m' : ModuleMap α}
    (h : m.entries.map (fun e => (e.1, e.2.face)) = m'.entries.map (fun e => (e.1, e.2.face)))
    (r : ModuleRecord α) : r.relinkImports m = r.relinkImports m' := by
  have hfind : ∀ name, (m.find? name).map (·.face) = (m'.find? name).map (·.face) := by
    intro name
    rw [ModuleMap.find?, ModuleMap.find?, ← lookup_map_snd, ← lookup_map_snd, h]
  simp only [relinkImports, ImportRecord.relink_congr (hfind _)]

/-- It makes no difference whether the imports of the modules that an import names are linked
already. -/
theorem ModuleRecord.relinkImports_mapRecords (m start : ModuleMap α) (r : ModuleRecord α) :
    r.relinkImports (m.mapRecords (·.relinkImports start)) = r.relinkImports m := by
  apply relinkImports_congr
  simp [ModuleMap.mapRecords, Function.comp_def, face, relinkImports, snapshot]

theorem ModuleRecord.relinkImports_relinkImports (m start : ModuleMap α) (r : ModuleRecord α) :
    (r.relinkImports start).relinkImports m = r.relinkImports m := by
  simp [relinkImports, ImportRecord.relink, Function.comp_def]

end Imports

namespace SharedGraph

variable {index : Std.HashMap String Cell} {store : Array ProviderRecord}

theorem getElem?_relinkCell (c k : Nat) :
    (relinkCell index store c)[k]? =
      if c = k then (store[k]?).map (·.relink (resolve index store)) else store[k]? :=
  Array.getElem?_modify

theorem resolve_relinkCell (c : Nat) :
    resolve index (relinkCell index store c) = resolve index store := by
  funext d
  have hname : ∀ k : Nat, ((relinkCell index store c)[k]?).map (·.name) =
      (store[k]?).map (·.name) := by
    intro k
    rw [getElem?_relinkCell]
    split
    · simp [Function.comp_def, ProviderRecord.relink]
    · rfl
  simp only [resolve, Option.map_bind, Function.comp_def, hname]

theorem getElem?_foldl_relinkCell {cells : List Cell} (h : cells.Nodup) (k : Nat) :
    (cells.foldl (relinkCell index) store)[k]? =
      if k ∈ cells then (store[k]?).map (·.relink (resolve index store)) else store[k]? := by
  induction cells generalizing store with
  | nil => simp
  | cons c cells ih =>
    rw [List.nodup_cons] at h
    rw [List.foldl_cons, ih h.2, resolve_relinkCell, getElem?_relinkCell]
    by_cases hk : k ∈ cells
    · have hne : c ≠ k := fun he => h.1 (he ▸ hk)
      simp [hk, hne]
    · by_cases hc : c = k
      · subst hc
        simp [hk]
      · simp [hk, hc, Ne.symm hc]

/-- The modules that are linked already come before those that are not. Every one of them
is linked against the modules as they were at the start. -/
theorem foldl_linkModule (start : ModuleMap Cell) (rest : List (String × ModuleRecord Cell))
    (done : List (String × ModuleRecord Cell)) (g : SharedGraph)
    (hstart : start.entries = done ++ rest)
    (hg : g.modules.entries = done.map (fun e => (e.1, e.2.relinkImports start)) ++ rest) :
    (rest.map Prod.fst).foldl (linkModule index) g =
      ⟨(rest.flatMap (·.2.providers)).foldl (relinkCell index) g.store,
        start.mapRecords (·.relinkImports start)⟩ := by
  induction rest generalizing done g with
  | nil =>
    have hm : g.modules = start.mapRecords (·.relinkImports start) :=
      ModuleMap.ext (by simpa [ModuleMap.mapRecords, hstart] using hg)
    simp [← hm]
  | cons e rest ih =>
    obtain ⟨name, r⟩ := e
    have hnot : name ∉ (done.map (fun e => (e.1, e.2.relinkImports start))).map Prod.fst := by
      have hnd := start.nodup
      rw [hstart, List.map_append, List.map_cons] at hnd
      have hdis := (List.nodup_middle.mp hnd)
      simpa [Function.comp_def] using fun hx => (List.nodup_cons.mp hdis).1
        (List.mem_append_left _ hx)
    have hfind : g.modules.find? name = some r := by
      rw [ModuleMap.find?, hg, lookup_append_of_notMem hnot, List.lookup_cons_self]
    have hface : r.relinkImports g.modules = r.relinkImports start := by
      apply ModuleRecord.relinkImports_congr
      simp [hg, hstart, Function.comp_def, ModuleRecord.face, ModuleRecord.relinkImports,
        ModuleRecord.snapshot]
    have hinsert : (g.modules.insert name (r.relinkImports start)).entries =
        (done ++ [(name, r)]).map (fun e => (e.1, e.2.relinkImports start)) ++ rest := by
      show upsert name _ g.modules.entries = _
      rw [hg, upsert_append_of_notMem hnot]
      simp [upsert]
    have hstep : linkModule index g name =
        ⟨r.providers.foldl (relinkCell index) g.store,
          g.modules.insert name (r.relinkImports start)⟩ := by
      simp only [linkModule, hfind, hface]
    rw [List.map_cons, List.foldl_cons, hstep,
      ih (done ++ [(name, r)]) _ (by simpa using hstart) hinsert, List.flatMap_cons,
      List.foldl_append]

theorem link_eq (g : SharedGraph) :
    g.link = ⟨g.cells.foldl (relinkCell g.index) g.store,
      g.modules.mapRecords (·.relinkImports g.modules)⟩ := by
  have hcells : g.cells = g.modules.entries.flatMap (·.2.providers) := by
    rw [cells, ModuleMap.providers, ModuleMap.records, List.flatMap_map]
  rw [link, hcells]
  exact foldl_linkModule g.modules g.modules.entries [] g rfl rfl

/-- The records in the cells of a module, after linking. -/
theorem recordsIn_foldl_relinkCell {g : SharedGraph} (h : g.Owned) {cs : List Cell}
    (hcs : ∀ c ∈ cs, c ∈ g.cells) :
    recordsIn (g.cells.foldl (relinkCell g.index) g.store) cs =
      (recordsIn g.store cs).map (·.relink g.view.canonicalName) := by
  have hresolve : resolve g.index g.store = g.view.canonicalName := funext g.resolve_index
  rw [recordsIn, recordsIn, List.map_filterMap]
  apply List.filterMap_congr
  intro c hc
  rw [getElem?_foldl_relinkCell h, if_pos (hcs c hc), hresolve]

theorem relinkImports_view {g : SharedGraph} {f h : List Cell → List ProviderRecord}
    {rename : String → String} {relinked : ModuleMap}
    (hrelinked : relinked =
      (g.modules.mapRecords (·.mapProviders h)).mapRecords (·.relinkProviders rename))
    (hf : ∀ t ∈ g.modules.records, f t.providers = (h t.providers).map (·.relink rename))
    {r : ModuleRecord Cell} (hr : r ∈ g.modules.records) :
    (r.relinkImports g.modules).mapProviders f =
      ((r.mapProviders h).relinkProviders rename).relinkImports relinked := by
  have himport : ∀ i : ImportRecord Cell,
      (i.relink g.modules).mapProviders f = (i.mapProviders h).relink relinked := by
    intro i
    cases ht : g.modules.find? i.name with
    | none => simp [ImportRecord.relink, ImportRecord.mapProviders, hrelinked, ht]
    | some t =>
      have hp := hf t (ModuleMap.mem_records_of_find? ht)
      simp [ImportRecord.relink, ImportRecord.mapProviders, Snapshot.mapProviders,
        ModuleRecord.mapProviders, ModuleRecord.relinkProviders, ModuleRecord.snapshot,
        hrelinked, ht, hp]
  simp [ModuleRecord.relinkImports, ModuleRecord.mapProviders, ModuleRecord.relinkProviders,
    himport, hf r hr]

/-- Linking in place refines linking in two passes, whatever cells the snapshots hold. -/
theorem view_link {g : SharedGraph} (h : g.Owned) : g.link.view = g.view.linkInTwoPasses := by
  have hcells : ∀ t ∈ g.modules.records, ∀ c ∈ t.providers, c ∈ g.cells :=
    fun t ht c hc => List.mem_flatMap.mpr ⟨t, ht, hc⟩
  have hf := fun t ht => recordsIn_foldl_relinkCell h (hcells t ht)
  simp only [link_eq, view, ModuleMap.linkInTwoPasses, ModuleMap.linkWith,
    ModuleMap.relinkDependencies, ModuleMap.mapRecords_mapRecords]
  apply ModuleMap.mapRecords_congr
  intro r hr
  exact relinkImports_view (ModuleMap.mapRecords_mapRecords _ _ _).symm hf hr

end SharedGraph

theorem ModuleMap.link_eq_linkInTwoPasses (m : ModuleMap) : m.link = m.linkInTwoPasses := by
  rw [link, SharedGraph.view_link m.owned_share, m.view_share]

end ModuleGraph
