import ModuleGraph.FileReader
import ModuleGraph.Proofs.Enrichment
import ModuleGraph.Proofs.SharedSession

/-! Modules that a reader keeps in its stores. A module is kept behind all others, in cells of its
own, so those that are there already stay as they are. Filling in a module changes nothing but
these cells and this place: it amounts to keeping the finished module in the first place. -/

namespace ModuleGraph

namespace FileReader

variable {reader : FileReader}

/-- The cache entries of some providers when the first of them goes to cell `n`. -/
def cacheFrom : Nat → List ProviderRecord → List (String × Nat)
  | _, [] => []
  | n, p :: ps => cacheFrom (n + 1) ps ++ [(p.name, n)]

theorem cacheFrom_congr {ps qs : List ProviderRecord} (h : ps.map (·.name) = qs.map (·.name))
    (n : Nat) : cacheFrom n ps = cacheFrom n qs := by
  induction ps generalizing n qs with
  | nil =>
    have hqs : qs = [] := by simpa using h.symm
    rw [hqs]
  | cons p ps ih =>
    cases qs with
    | nil => simp at h
    | cons q qs =>
      rw [List.map_cons, List.map_cons, List.cons.injEq] at h
      rw [cacheFrom, cacheFrom, ih h.2, h.1]

theorem mem_cacheFrom {n : Nat} {ps : List ProviderRecord} {e : String × Nat}
    (h : e ∈ cacheFrom n ps) : e.2 < n + ps.length := by
  induction ps generalizing n with
  | nil => cases h
  | cons p ps ih =>
    rw [List.length_cons]
    rcases List.mem_append.mp h with h | h
    · have hlt := ih h
      omega
    · rw [List.mem_singleton.mp h]
      omega

theorem tableIn_cacheFrom {store : Array ProviderRecord} {n : Nat} {ps : List ProviderRecord}
    (h : HoldsFrom store n ps) : tableIn store (cacheFrom n ps) = lastDeclared ps := by
  induction ps generalizing n with
  | nil => rfl
  | cons p ps ih =>
    have hp : store[n]? = some p := h.1
    have hps := ih h.2
    have hlast : lastDeclared (p :: ps) = lastDeclared ps ++ [(p.name, p.dependencies)] := by
      simp [lastDeclared]
    rw [cacheFrom, tableIn, List.map_append, ← tableIn, hps, hlast]
    simp [hp]

theorem tableIn_append {store : Array ProviderRecord} {cache : List (String × Nat)}
    (h : ∀ e ∈ cache, e.2 < store.size) (more : Array ProviderRecord) :
    tableIn (store ++ more) cache = tableIn store cache := by
  apply List.map_congr_left
  intro e he
  rw [Array.getElem?_append_left (h e he)]

theorem modify_append_cons {α : Type} (xs : Array α) (x : α) (rest : List α) (f : α → α) :
    (xs ++ (x :: rest).toArray).modify xs.size f = xs.push (f x) ++ rest.toArray := by
  apply Array.ext'
  simp [List.modify_eq_take_drop]

theorem modify_push {α : Type} (xs : Array α) (x : α) (f : α → α) :
    (xs.push x).modify xs.size f = xs.push (f x) := by
  simpa using modify_append_cons xs x [] f

theorem foldl_fillCell (store : Array ProviderRecord) (ps : List ProviderRecord)
    (f : ProviderRecord → List String) :
    ((cellsFrom store.size ps).zip (ps.map f)).foldl fillCell (store ++ ps.toArray) =
      store ++ (ps.map fun p => { p with dependencies := f p }).toArray := by
  induction ps generalizing store with
  | nil => rfl
  | cons p ps ih =>
    have hrest := ih (store.push { p with dependencies := f p })
    rw [Array.size_push] at hrest
    simp only [cellsFrom, List.length_cons, List.range'_succ, List.map_cons, List.zip_cons_cons,
      List.foldl_cons, fillCell, modify_append_cons] at hrest ⊢
    rw [hrest]
    simp

section Keep

variable {m : ModuleRecord}

theorem foldl_addProvider (reader : FileReader) (ps : List ProviderRecord) :
    ps.foldl addProvider reader =
      { reader with
        store := reader.store ++ ps.toArray
        providerCache := cacheFrom reader.store.size ps ++ reader.providerCache } := by
  induction ps generalizing reader with
  | nil => simp [cacheFrom]
  | cons p ps ih =>
    rw [List.foldl_cons, ih, addProvider]
    simp [cacheFrom]

theorem keep_eq (reader : FileReader) (m : ModuleRecord) :
    reader.keep m =
      { nextId := reader.nextId
        store := reader.store ++ m.providers.toArray
        modules := reader.modules.push (m.mapProviders (cellsFrom reader.store.size))
        providerCache := cacheFrom reader.store.size m.providers ++ reader.providerCache
        moduleCache := (m.name, reader.modules.size) :: reader.moduleCache } := by
  rw [keep, foldl_addProvider]

/-- Every place and cell that the reader knows is in its stores. -/
structure Bounded (reader : FileReader) : Prop where
  modules : ∀ m ∈ reader.modules, m.AllCells (· < reader.store.size)
  providerCache : ∀ e ∈ reader.providerCache, e.2 < reader.store.size
  moduleCache : ∀ e ∈ reader.moduleCache, e.2 < reader.modules.size

theorem Bounded.keep (h : reader.Bounded) (hshown : ∀ i ∈ m.imports, i.snapshot = none) :
    (reader.keep m).Bounded := by
  have hsize : (reader.store ++ m.providers.toArray).size =
      reader.store.size + m.providers.length := by simp
  rw [keep_eq]
  constructor
  · intro r hr
    rw [hsize]
    rcases Array.mem_push.mp hr with hr | rfl
    · exact (h.modules r hr).mono fun c hc => by omega
    · refine ⟨fun c hc => (mem_cellsFrom.mp hc).2, fun i hi s hs => ?_⟩
      obtain ⟨j, hj, rfl⟩ := List.mem_map.mp hi
      simp [ImportRecord.mapProviders, hshown j hj] at hs
  · intro e he
    rw [hsize]
    rcases List.mem_append.mp he with he | he
    · exact mem_cacheFrom he
    · exact Nat.lt_add_right _ (h.providerCache e he)
  · intro e he
    rw [Array.size_push]
    rcases List.mem_cons.mp he with rfl | he
    · exact Nat.lt_succ_self _
    · exact Nat.lt_succ_of_lt (h.moduleCache e he)

theorem module?_keep_self (reader : FileReader) (hshown : ∀ i ∈ m.imports, i.snapshot = none) :
    (reader.keep m).module? reader.modules.size = some m := by
  have hproviders := recordsIn_cellsFrom (holdsFrom_append_toArray reader.store m.providers)
  have himports : (m.imports.map (·.mapProviders (cellsFrom reader.store.size))).map
      (·.mapProviders (recordsIn (reader.store ++ m.providers.toArray))) = m.imports := by
    rw [List.map_map, List.map_congr_left, List.map_id]
    intro i hi
    cases i with
    | mk name path isAsync isForwardReference dependencies snapshot =>
      obtain rfl : snapshot = none := hshown _ hi
      rfl
  rw [keep_eq, module?, Array.getElem?_push_size, Option.map_some, ModuleRecord.mapProviders,
    ModuleRecord.mapProviders, himports, hproviders]

/-- Modules that are in their places already stay as they are. -/
theorem module?_keep_of_lt (h : reader.Bounded) (m : ModuleRecord) {place : Nat}
    (hplace : place < reader.modules.size) :
    (reader.keep m).module? place = reader.module? place := by
  rw [keep_eq, module?, module?, Array.getElem?_push_lt hplace, Array.getElem?_eq_getElem hplace,
    Option.map_some, Option.map_some,
    ModuleRecord.mapProviders_append _ (h.modules _ (Array.getElem_mem hplace))]

theorem listed?_keep (h : reader.Bounded) (hshown : ∀ i ∈ m.imports, i.snapshot = none)
    (x : String) :
    (reader.keep m).listed? x = if x = m.name then some m.listed else reader.listed? x := by
  have hcache : (reader.keep m).moduleCache =
      (m.name, reader.modules.size) :: reader.moduleCache := by rw [keep_eq]
  rw [listed?, hcache, List.lookup_cons]
  by_cases hx : x = m.name
  · simp [hx, module?_keep_self reader hshown]
  · rw [beq_false_of_ne hx, if_neg hx, listed?]
    cases hlookup : reader.moduleCache.lookup x with
    | none => rfl
    | some place =>
      have hplace := h.moduleCache _ (mem_of_lookup hlookup)
      rw [Option.bind_some, Option.bind_some, module?_keep_of_lt h m hplace]

theorem table_keep (h : reader.Bounded) (m : ModuleRecord) :
    (reader.keep m).table = lastDeclared m.providers ++ reader.table := by
  have hnew := tableIn_cacheFrom (holdsFrom_append_toArray reader.store m.providers)
  have hold := tableIn_append h.providerCache m.providers.toArray
  rw [table, keep_eq, tableIn, List.map_append, ← tableIn, ← tableIn, hnew, hold, table]

end Keep

/-- To keep a draft and to fill it in is to keep what it is filled in to. -/
theorem fill_keep (reader : FileReader) (draft : ModuleRecord) :
    ((reader.keep draft).fillImports reader.modules.size).fillProviders
        (cellsFrom reader.store.size draft.providers) =
      reader.keep { draft with
        imports := draft.imports.map fun i =>
          { i with dependencies := ((reader.keep draft).listed? i.name).getD [] }
        providers := draft.providers.map fun p =>
          { p with dependencies := (reader.keep draft).table.closure p.name } } := by
  generalize hlisted : (reader.keep draft).listed? = listed
  generalize htable : (reader.keep draft).table = table
  have hcells := recordsIn_cellsFrom (holdsFrom_append_toArray reader.store draft.providers)
  have hfilled := foldl_fillCell reader.store draft.providers fun p => table.closure p.name
  have hstore : (reader.keep draft).store = reader.store ++ draft.providers.toArray := by
    rw [keep_eq]
  have hkept : ((reader.keep draft).fillImports reader.modules.size).table = table := htable
  have hnames : cacheFrom reader.store.size (draft.providers.map fun p =>
      { p with dependencies := table.closure p.name }) =
        cacheFrom reader.store.size draft.providers :=
    cacheFrom_congr (by simp [Function.comp_def]) _
  rw [fillProviders, hkept, fillImports, hlisted, hstore, hcells, hfilled, keep_eq, keep_eq,
    modify_push, hnames]
  simp [ModuleRecord.mapProviders, ImportRecord.mapProviders, Function.comp_def, cellsFrom]

end FileReader

end ModuleGraph
