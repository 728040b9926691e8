import ModuleGraph.Proofs.ConvergentLinking
import ModuleGraph.Proofs.LinkingHistory
import ModuleGraph.SharedSession

/-! A session that shares records between modules and snapshots shows the same as one that copies
them. What ties the two together is the view of the store, along with the fact that each record
belongs to one module only, so that linking changes it once. Every step keeps this, whatever
stale cells the snapshots hold. -/

namespace ModuleGraph

/-- All cells of a module, its own and those its imports show, satisfy a condition. -/
def ModuleRecord.AllCells (p : Nat → Prop) (r : ModuleRecord Cell) : Prop :=
  (∀ c ∈ r.providers, p c) ∧ ∀ i ∈ r.imports, ∀ s, i.snapshot = some s → ∀ c ∈ s.providers, p c

namespace SharedGraph

/-- Every cell of the graph is in the store. -/
def Bounded (g : SharedGraph) : Prop :=
  ∀ r ∈ g.modules.records, r.AllCells (· < g.store.size)

/-- What every session keeps: no two modules own a cell, and no cell is missing. -/
structure Sound (g : SharedGraph) : Prop where
  owned : g.Owned
  bounded : g.Bounded

end SharedGraph

section Placing

variable {n : Nat}

theorem mem_cellsFrom {ps : List ProviderRecord} {c : Nat} :
    c ∈ cellsFrom n ps ↔ n ≤ c ∧ c < n + ps.length :=
  List.mem_range'_1

theorem mem_placeImports {is : List ImportRecord} {i : ImportRecord Cell} {s : Snapshot Cell}
    {c : Nat} (hi : i ∈ placeImports n is) (hs : i.snapshot = some s) (hc : c ∈ s.providers) :
    n ≤ c ∧ c < n + (is.flatMap (·.shown)).length := by
  induction is generalizing n with
  | nil => cases hi
  | cons j is ih =>
    rw [List.flatMap_cons, List.length_append]
    rcases List.mem_cons.mp hi with rfl | hi
    · obtain ⟨t, ht, rfl⟩ := Option.map_eq_some_iff.mp hs
      have hshown : j.shown = t.providers := by rw [ImportRecord.shown, ht]
      have hplace := mem_cellsFrom.mp hc
      rw [hshown]
      omega
    · have hplace := ih hi
      omega

theorem ModuleRecord.allCells_place (m : ModuleRecord) :
    (m.place n).AllCells (fun c => n ≤ c ∧ c < n + m.held.length) := by
  have hlength : m.held.length = m.providers.length + (m.imports.flatMap (·.shown)).length :=
    List.length_append
  refine ⟨fun c hc => ?_, fun i hi s hs c hc => ?_⟩
  · have hplace := mem_cellsFrom.mp hc
    omega
  · have hplace := mem_placeImports hi hs hc
    omega

theorem ModuleRecord.AllCells.mono {p q : Nat → Prop} {r : ModuleRecord Cell}
    (h : r.AllCells p) (hpq : ∀ c, p c → q c) : r.AllCells q :=
  ⟨fun c hc => hpq c (h.1 c hc), fun i hi s hs c hc => hpq c (h.2 i hi s hs c hc)⟩

theorem allCells_placeEntries {es : List (String × ModuleRecord)}
    {e : String × ModuleRecord Cell} (he : e ∈ placeEntries n es) :
    e.2.AllCells (· < n + (es.flatMap (·.2.held)).length) := by
  induction es generalizing n with
  | nil => cases he
  | cons e' es ih =>
    rw [List.flatMap_cons, List.length_append]
    rcases List.mem_cons.mp he with rfl | he
    · exact e'.2.allCells_place.mono fun c hc => by omega
    · exact (ih he).mono fun c hc => by omega

end Placing

section Growing

variable {store : Array ProviderRecord}

theorem recordsIn_append (more : Array ProviderRecord) {cells : List Cell}
    (h : ∀ c ∈ cells, c < store.size) :
    recordsIn (store ++ more) cells = recordsIn store cells := by
  apply List.filterMap_congr
  intro c hc
  exact Array.getElem?_append_left (h c hc)

theorem ModuleRecord.mapProviders_append (more : Array ProviderRecord) {r : ModuleRecord Cell}
    (h : r.AllCells (· < store.size)) :
    r.mapProviders (recordsIn (store ++ more)) = r.mapProviders (recordsIn store) := by
  have himports : r.imports.map (·.mapProviders (recordsIn (store ++ more))) =
      r.imports.map (·.mapProviders (recordsIn store)) := by
    apply List.map_congr_left
    intro i hi
    cases hs : i.snapshot with
    | none => simp [ImportRecord.mapProviders, hs]
    | some s =>
      have hshown := recordsIn_append more (h.2 i hi s hs)
      simp [ImportRecord.mapProviders, Snapshot.mapProviders, hs, hshown]
  rw [mapProviders, mapProviders, himports, recordsIn_append more h.1]

end Growing

namespace SharedGraph

theorem view_insert {g : SharedGraph} (h : g.Bounded) (name : String) (record : ModuleRecord) :
    (g.insert name record).view = g.view.insert name record := by
  have hplaced := holdsFrom_append_toArray g.store record.held
  have hold : g.modules.mapRecords (·.mapProviders (recordsIn (g.store ++ record.held.toArray))) =
      g.view :=
    ModuleMap.mapRecords_congr fun r hr => ModuleRecord.mapProviders_append _ (h r hr)
  rw [view, insert, ModuleMap.mapRecords_insert, ModuleRecord.mapProviders_place hplaced, hold]

theorem view_erase (g : SharedGraph) (name : String) :
    (g.erase name).view = g.view.erase name :=
  g.modules.mapRecords_erase name _

theorem Owned.view_link {g : SharedGraph} (h : g.Owned) : g.link.view = g.view.link := by
  rw [SharedGraph.view_link h, ModuleMap.link_eq_linkInTwoPasses]

/-- Linking lets each import show the very cells of the module it names. -/
theorem snapshot_link (g : SharedGraph) : ∀ r ∈ g.link.modules.records, ∀ i ∈ r.imports,
    i.snapshot = (g.link.modules.find? i.name).map (·.snapshot) := by
  rw [link_eq, ModuleMap.records_mapRecords]
  intro r hr i hi
  obtain ⟨start, -, rfl⟩ := List.mem_map.mp hr
  obtain ⟨j, -, rfl⟩ := List.mem_map.mp hi
  rw [ModuleMap.find?_mapRecords, Option.map_map]
  rfl

theorem bounded_share (m : ModuleMap) : m.share.Bounded := by
  have hsize : m.share.store.size = 0 + (m.entries.flatMap (·.2.held)).length := by
    rw [ModuleMap.share, List.size_toArray, ModuleMap.records, List.flatMap_map, Nat.zero_add]
  intro r hr
  obtain ⟨e, he, rfl⟩ := List.mem_map.mp hr
  rw [hsize]
  exact allCells_placeEntries he

theorem sound_share (m : ModuleMap) : m.share.Sound :=
  ⟨m.owned_share, bounded_share m⟩

theorem size_foldl_relinkCell (index : Std.HashMap String Cell) (cells : List Cell)
    (store : Array ProviderRecord) : (cells.foldl (relinkCell index) store).size = store.size := by
  induction cells generalizing store with
  | nil => rfl
  | cons c cells ih => rw [List.foldl_cons, ih, relinkCell, Array.size_modify]

theorem Bounded.link {g : SharedGraph} (h : g.Bounded) : g.link.Bounded := by
  rw [Bounded, link_eq, size_foldl_relinkCell, ModuleMap.records_mapRecords]
  intro r hr
  obtain ⟨start, hstart, rfl⟩ := List.mem_map.mp hr
  refine ⟨(h start hstart).1, fun i hi s hs c hc => ?_⟩
  obtain ⟨j, -, rfl⟩ := List.mem_map.mp hi
  -- A snapshot that linking takes holds the cells of a module of the graph.
  obtain ⟨t, ht, rfl⟩ := Option.map_eq_some_iff.mp hs
  exact (h t (ModuleMap.mem_records_of_find? ht)).1 c hc

theorem Sound.link {g : SharedGraph} (h : g.Sound) : g.link.Sound :=
  ⟨h.owned.link, h.bounded.link⟩

theorem Sound.erase {g : SharedGraph} (h : g.Sound) (name : String) : (g.erase name).Sound := by
  have hsub : (g.erase name).modules.records.Sublist g.modules.records :=
    List.filter_sublist.map Prod.snd
  exact ⟨h.owned.sublist (hsub.flatMap _), fun r hr => h.bounded r (hsub.subset hr)⟩

/-- A value that shares nothing with the other entries may be put in the place of any of them. -/
theorem nodup_flatMap_upsert {α : Type} {f : α → List Cell} {key : String} {value : α}
    {entries : List (String × α)} (h : (entries.flatMap (f ·.2)).Nodup) (hvalue : (f value).Nodup)
    (hnew : ∀ e ∈ entries, (f value).Disjoint (f e.2)) :
    ((upsert key value entries).flatMap (f ·.2)).Nodup := by
  induction entries with
  | nil => simpa [upsert] using hvalue
  | cons entry rest ih =>
    obtain ⟨k, v⟩ := entry
    rw [List.flatMap_cons, List.nodup_append'] at h
    rw [List.forall_mem_cons] at hnew
    rw [upsert]
    split
    · refine List.nodup_append'.mpr ⟨hvalue, h.2.1, fun c hc hrest => ?_⟩
      obtain ⟨e, he, hce⟩ := List.mem_flatMap.mp hrest
      exact hnew.2 e he hc hce
    · refine List.nodup_append'.mpr ⟨h.1, ih h.2.1 hnew.2, fun c hc hrest => ?_⟩
      obtain ⟨e, he, hce⟩ := List.mem_flatMap.mp hrest
      rcases eq_or_mem_of_mem_upsert he with rfl | he
      · exact hnew.1 hce hc
      · exact h.2.2 hc (List.mem_flatMap.mpr ⟨e, he, hce⟩)

theorem Sound.insert {g : SharedGraph} (h : g.Sound) (name : String) (record : ModuleRecord) :
    (g.insert name record).Sound := by
  have hplaced := record.allCells_place (n := g.store.size)
  have hsize : (g.insert name record).store.size = g.store.size + record.held.length := by
    simp [SharedGraph.insert]
  constructor
  · have hcells : ∀ m : ModuleMap Cell, m.providers = m.entries.flatMap (·.2.providers) :=
      fun m => by rw [ModuleMap.providers, ModuleMap.records, List.flatMap_map]
    have howned := h.owned
    rw [Owned, cells, hcells] at howned ⊢
    refine nodup_flatMap_upsert howned List.nodup_range' fun e he c hc hold => ?_
    -- The new cells lie behind the end of the old store.
    have hle := (hplaced.1 c hc).1
    have hlt := (h.bounded e.2 (List.mem_map_of_mem he)).1 c hold
    omega
  · intro r hr
    rw [hsize]
    obtain ⟨e, he, rfl⟩ := List.mem_map.mp hr
    rcases eq_or_mem_of_mem_upsert he with rfl | he
    · exact hplaced.mono fun c hc => hc.2
    · exact (h.bounded e.2 (List.mem_map_of_mem he)).mono fun c hc => by omega

end SharedGraph

namespace Session

variable {g : SharedGraph}

/-- A loaded graph takes the place of the present one, or nothing changes. -/
theorem loadInto_cases (m : ModuleMap) (text : String) :
    (∃ loaded, loadInto m text = ⟨loaded, .changed, []⟩) ∨
      ∃ reply, reply ≠ .changed ∧ loadInto m text = ⟨m, reply, []⟩ := by
  unfold loadInto
  split
  · exact .inr ⟨_, by simp, rfl⟩
  · split
    · exact .inl ⟨_, rfl⟩
    · exact .inr ⟨_, by simp, rfl⟩

theorem seen_loadShared (g : SharedGraph) (text : String) :
    (loadShared g text).seen = loadInto g.view text := by
  rcases loadInto_cases g.view text with ⟨loaded, hload⟩ | ⟨reply, hreply, hload⟩
  · simp [loadShared, hload, SharedOutcome.seen, ModuleMap.view_share]
  · cases reply <;> first | exact absurd rfl hreply | simp [loadShared, hload, SharedOutcome.seen]

theorem sound_loadShared (h : g.Sound) (text : String) : (loadShared g text).graph.Sound := by
  unfold loadShared
  dsimp only
  split
  · exact SharedGraph.sound_share _
  · exact h

theorem seen_registerShared (h : g.Sound) (root : Node) (file : String) :
    (registerShared g root file).seen = registerFile g.view root file := by
  unfold registerShared registerFile
  cases hread : (readModule root file {}).module with
  | none => simp [hread, SharedOutcome.seen]
  | some record =>
    simp [hread, SharedOutcome.seen, SharedGraph.register, SharedGraph.view_insert h.bounded,
      ModuleMap.register]

theorem sound_registerShared (h : g.Sound) (root : Node) (file : String) :
    (registerShared g root file).graph.Sound := by
  unfold registerShared
  dsimp only
  split
  · exact h
  · exact h.insert _ _

theorem contains_view (g : SharedGraph) (name : String) :
    g.view.contains name = g.modules.contains name := by
  simp [ModuleMap.contains, SharedGraph.view]

/-- A step shows on shared records what it shows on records that are all apart. -/
theorem seen_runShared (h : g.Sound) (s : Step) : (s.runShared g).seen = s.run g.view := by
  cases s with
  | register root file => exact seen_registerShared h root file
  | load text => exact seen_loadShared g text
  | replace modules => simp [Step.runShared, Step.run, SharedOutcome.seen, ModuleMap.view_share]
  | reload => exact seen_loadShared g g.view.renderJson
  | remove name =>
    simp [Step.runShared, Step.run, SharedOutcome.seen, SharedGraph.view_erase, contains_view]
  | link => simp [Step.runShared, Step.run, SharedOutcome.seen, h.owned.view_link]
  | closure name => rfl
  | render format => rfl

theorem sound_runShared (h : g.Sound) (s : Step) : (s.runShared g).graph.Sound := by
  cases s with
  | register root file => exact sound_registerShared h root file
  | load text => exact sound_loadShared h text
  | replace modules => exact SharedGraph.sound_share modules
  | reload => exact sound_loadShared h g.view.renderJson
  | remove name => exact h.erase name
  | link => exact h.link
  | closure name => exact h
  | render format => exact h

/-- Sharing records in a session is the same as copying them. -/
theorem seenOutcomes_eq_runAll (h : g.Sound) (steps : List Step) :
    seenOutcomes g steps = runAll g.view steps := by
  induction steps generalizing g with
  | nil => rfl
  | cons s steps ih =>
    have hseen := seen_runShared h s
    have hrest := ih (sound_runShared h s)
    have hview : (s.runShared g).graph.view = (s.run g.view).modules :=
      congrArg (·.modules) hseen
    rw [seenOutcomes, runAllShared, List.map_cons, ← seenOutcomes, hrest, hseen, hview]
    rfl

theorem runAll_append (m : ModuleMap) (pre post : List Step) :
    runAll m (pre ++ post) = runAll m pre ++ runAll (after m pre) post := by
  induction pre generalizing m with
  | nil => rfl
  | cons s pre ih => rw [List.cons_append, runAll, ih, runAll, after_cons, List.cons_append]

theorem length_runAll (m : ModuleMap) (steps : List Step) :
    (runAll m steps).length = steps.length := by
  induction steps generalizing m with
  | nil => rfl
  | cons s steps ih => rw [runAll, List.length_cons, ih, List.length_cons]

/-- Saving the graph and loading it again takes all records apart, and no step after it shows
anything else than without it. What the steps before it left in the store, such as cells that
only the snapshots of replaced or removed modules hold, makes no difference either. -/
theorem reload_unobservable (m : ModuleMap) (pre post : List Step) :
    ∃ earlier reloaded later,
      earlier.length = pre.length ∧ later.length = post.length ∧
      seenOutcomes m.share (pre ++ post) = earlier ++ later ∧
      seenOutcomes m.share (pre ++ .reload :: post) = earlier ++ reloaded :: later := by
  have hseen := seenOutcomes_eq_runAll (SharedGraph.sound_share m)
  refine ⟨runAll m pre, Step.reload.run (after m pre), runAll (after m pre) post,
    length_runAll m pre, length_runAll _ post, ?_, ?_⟩
  · rw [hseen, ModuleMap.view_share, runAll_append]
  · rw [hseen, ModuleMap.view_share, runAll_append, runAll, modules_reload]

end Session

end ModuleGraph
