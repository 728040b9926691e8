import Mathlib.Data.List.Nodup
import ModuleGraph.Sharing

/-! A graph put into a store of its own reads as it did before, and no record in the store
belongs to two modules. -/

namespace ModuleGraph

/-- The records stand in the cells from `n` on, in order. -/
def HoldsFrom (store : Array ProviderRecord) : Nat → List ProviderRecord → Prop
  | _, [] => True
  | n, p :: ps => store[n]? = some p ∧ HoldsFrom store (n + 1) ps

theorem holdsFrom_append {store : Array ProviderRecord} {n : Nat} {ps qs : List ProviderRecord} :
    HoldsFrom store n (ps ++ qs) ↔
      HoldsFrom store n ps ∧ HoldsFrom store (n + ps.length) qs := by
  induction ps generalizing n with
  | nil => simp [HoldsFrom]
  | cons p ps ih =>
    have hn : n + (ps.length + 1) = n + 1 + ps.length := by omega
    simp only [List.cons_append, HoldsFrom, ih, and_assoc, List.length_cons, hn]

theorem holdsFrom_toArray (pre ps : List ProviderRecord) :
    HoldsFrom (pre ++ ps).toArray pre.length ps := by
  induction ps generalizing pre with
  | nil => trivial
  | cons p ps ih =>
    refine ⟨by simp, ?_⟩
    simpa using ih (pre ++ [p])

theorem holdsFrom_append_toArray (store : Array ProviderRecord) (ps : List ProviderRecord) :
    HoldsFrom (store ++ ps.toArray) store.size ps := by
  have hfrom := holdsFrom_toArray store.toList ps
  rwa [← List.append_toArray, Array.toArray_toList, Array.length_toList] at hfrom

section View

variable {store : Array ProviderRecord} {n : Nat}

theorem recordsIn_cellsFrom {ps : List ProviderRecord} (h : HoldsFrom store n ps) :
    recordsIn store (cellsFrom n ps) = ps := by
  induction ps generalizing n with
  | nil => rfl
  | cons p ps ih =>
    have hp : store[n]? = some p := h.1
    have hps := ih h.2
    simp only [recordsIn, cellsFrom, List.length_cons, List.range'_succ] at hps ⊢
    rw [List.filterMap_cons_some hp, hps]

theorem ImportRecord.mapProviders_place {i : ImportRecord} (h : HoldsFrom store n i.shown) :
    (i.mapProviders (cellsFrom n)).mapProviders (recordsIn store) = i := by
  cases i with
  | mk name path isAsync isForwardReference dependencies snapshot =>
    cases snapshot with
    | none => rfl
    | some s =>
      have hs : recordsIn store (cellsFrom n s.providers) = s.providers := recordsIn_cellsFrom h
      simp [ImportRecord.mapProviders, Snapshot.mapProviders, hs]

theorem map_placeImports {is : List ImportRecord}
    (h : HoldsFrom store n (is.flatMap (·.shown))) :
    (placeImports n is).map (·.mapProviders (recordsIn store)) = is := by
  induction is generalizing n with
  | nil => rfl
  | cons i is ih =>
    have hh := holdsFrom_append.mp h
    rw [placeImports, List.map_cons, ImportRecord.mapProviders_place hh.1, ih hh.2]

theorem ModuleRecord.mapProviders_place {m : ModuleRecord} (h : HoldsFrom store n m.held) :
    (m.place n).mapProviders (recordsIn store) = m := by
  have hh := holdsFrom_append.mp h
  simp only [ModuleRecord.mapProviders, ModuleRecord.place, map_placeImports hh.2,
    recordsIn_cellsFrom hh.1]

theorem map_placeEntries {es : List (String × ModuleRecord)}
    (h : HoldsFrom store n (es.flatMap (·.2.held))) :
    (placeEntries n es).map (fun e => (e.1, e.2.mapProviders (recordsIn store))) = es := by
  induction es generalizing n with
  | nil => rfl
  | cons e es ih =>
    have hh := holdsFrom_append.mp h
    rw [placeEntries, List.map_cons, ih hh.2]
    simp only [ModuleRecord.mapProviders_place hh.1]

end View

/-- Putting a graph into a store loses nothing. -/
theorem ModuleMap.view_share (m : ModuleMap) : m.share.view = m := by
  have he : m.records.flatMap (·.held) = m.entries.flatMap (·.2.held) := by
    rw [ModuleMap.records, List.flatMap_map]
  have hs : HoldsFrom m.share.store 0 (m.entries.flatMap (·.2.held)) := by
    rw [ModuleMap.share, he]
    exact holdsFrom_toArray [] _
  exact ModuleMap.ext (map_placeEntries hs)

theorem mem_cells_placeEntries {n c : Nat} {es : List (String × ModuleRecord)}
    (h : c ∈ (placeEntries n es).flatMap (·.2.providers)) : n ≤ c := by
  induction es generalizing n with
  | nil => simp [placeEntries] at h
  | cons e es ih =>
    rw [placeEntries, List.flatMap_cons, List.mem_append] at h
    rcases h with h | h
    · have hc := List.mem_range'_1.mp h
      omega
    · have hc := ih h
      omega

theorem nodup_cells_placeEntries (n : Nat) (es : List (String × ModuleRecord)) :
    ((placeEntries n es).flatMap (·.2.providers)).Nodup := by
  induction es generalizing n with
  | nil => exact List.nodup_nil
  | cons e es ih =>
    rw [placeEntries, List.flatMap_cons, List.nodup_append']
    refine ⟨List.nodup_range', ih _, ?_⟩
    intro c hc hc'
    have hlt := (List.mem_range'_1.mp hc).2
    have hle := mem_cells_placeEntries hc'
    simp only [ModuleRecord.held, List.length_append] at hle
    omega

theorem ModuleMap.owned_share (m : ModuleMap) : m.share.Owned := by
  have he : m.share.cells = (placeEntries 0 m.entries).flatMap (·.2.providers) := by
    rw [SharedGraph.cells, ModuleMap.providers, ModuleMap.records, List.flatMap_map]
    rfl
  rw [SharedGraph.Owned, he]
  exact nodup_cells_placeEntries 0 m.entries

end ModuleGraph
