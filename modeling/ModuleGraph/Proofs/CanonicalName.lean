import Mathlib.Data.List.Basic
import ModuleGraph.Linking
import Std.Data.HashMap.Lemmas

/-! The canonical name of a dependency: the name of the first provider, in module order and
then in list order, whose name or token it is. The index that linking makes agrees with a
scan over all providers. -/

namespace ModuleGraph

/-- Whether a dependency is the name or the token of a provider. -/
def ProviderRecord.answers (d : String) (p : ProviderRecord) : Bool :=
  p.name = d || p.provide = some d

theorem ProviderRecord.answers_iff_mem {p : ProviderRecord} {d : String} :
    p.answers d = true ↔ d ∈ p.answersTo := by
  rw [answers, answersTo, Bool.or_eq_true, decide_eq_true_iff, decide_eq_true_iff,
    List.mem_cons, Option.mem_toList, eq_comm]

namespace ModuleMap

/-- The first provider that answers to a dependency. -/
def provider? (m : ModuleMap) (d : String) : Option ProviderRecord :=
  m.providers.find? (·.answers d)

/-- The name that linking gives a dependency. -/
def canonicalName (m : ModuleMap) (d : String) : String :=
  ((m.provider? d).map (·.name)).getD d

end ModuleMap

theorem foldl_insertIfNew (c : Cell) (d : String) (keys : List String)
    (index : Std.HashMap String Cell) :
    (keys.foldl (fun index key => index.insertIfNew key c) index)[d]? =
      index[d]?.or (if d ∈ keys then some c else none) := by
  induction keys generalizing index with
  | nil => simp
  | cons key keys ih =>
    rw [List.foldl_cons, ih, Std.HashMap.getElem?_insertIfNew]
    by_cases hd : key = d
    · subst hd
      by_cases hk : key ∈ index
      · simp [hk]
      · simp [hk]
    · have hne : d ≠ key := Ne.symm hd
      simp [hd, hne]

namespace SharedGraph

variable {store : Array ProviderRecord}

theorem getElem?_indexCell (index : Std.HashMap String Cell) (c : Cell) (d : String) :
    (indexCell store index c)[d]? =
      index[d]?.or (if (store[c]?).any (·.answers d) then some c else none) := by
  rw [indexCell]
  cases store[c]? with
  | none => simp
  | some p =>
    rw [foldl_insertIfNew]
    simp only [Option.any_some, ProviderRecord.answers_iff_mem]

theorem getElem?_foldl_indexCell (cells : List Cell) (index : Std.HashMap String Cell)
    (d : String) :
    (cells.foldl (indexCell store) index)[d]? =
      index[d]?.or (cells.find? (fun c => (store[c]?).any (·.answers d))) := by
  induction cells generalizing index with
  | nil => simp
  | cons c cells ih =>
    rw [List.foldl_cons, ih, getElem?_indexCell, Option.or_assoc, List.find?_cons]
    cases (store[c]?).any (·.answers d) <;> simp

theorem index_bind_store (g : SharedGraph) (d : String) :
    g.index[d]?.bind (fun c => g.store[c]?) =
      (recordsIn g.store g.cells).find? (·.answers d) := by
  rw [index, getElem?_foldl_indexCell, recordsIn, List.find?_filterMap]
  simp

theorem providers_view (g : SharedGraph) : g.view.providers = recordsIn g.store g.cells := by
  simp only [ModuleMap.providers, view, ModuleMap.records_mapRecords, List.flatMap_map,
    ModuleRecord.mapProviders, cells, recordsIn, List.filterMap_flatMap]

/-- The name that linking looks up in the store is the canonical name. -/
theorem resolve_index (g : SharedGraph) (d : String) :
    resolve g.index g.store d = g.view.canonicalName d := by
  rw [resolve, index_bind_store, ModuleMap.canonicalName, ModuleMap.provider?, providers_view]

end SharedGraph

end ModuleGraph
