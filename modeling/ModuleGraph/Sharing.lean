import ModuleGraph.ModuleMap

/-! Module graphs that keep their provider records in one store. A module and the snapshots
taken of it hold the same cells of the store, so a record that changes shows everywhere. -/

namespace ModuleGraph

abbrev Cell := Nat

/-- A module graph whose providers are cells of a store. -/
structure SharedGraph where
  store : Array ProviderRecord
  modules : ModuleMap Cell

def recordsIn (store : Array ProviderRecord) (cells : List Cell) : List ProviderRecord :=
  cells.filterMap (fun c => store[c]?)

namespace SharedGraph

/-- The graph as it reads when every cell is replaced by the record in it. -/
def view (g : SharedGraph) : ModuleMap :=
  g.modules.mapRecords (·.mapProviders (recordsIn g.store))

def cells (g : SharedGraph) : List Cell := g.modules.providers

/-- No record belongs to two modules, or twice to one. Snapshots may hold any cells. -/
def Owned (g : SharedGraph) : Prop := g.cells.Nodup

end SharedGraph

def ImportRecord.shown (i : ImportRecord) : List ProviderRecord :=
  match i.snapshot with
  | some s => s.providers
  | none => []

/-- The records that a module holds: its own, and then those its imports show. -/
def ModuleRecord.held (m : ModuleRecord) : List ProviderRecord :=
  m.providers ++ m.imports.flatMap (·.shown)

def cellsFrom (n : Nat) (ps : List ProviderRecord) : List Cell :=
  List.range' n ps.length

def placeImports : Nat → List ImportRecord → List (ImportRecord Cell)
  | _, [] => []
  | n, i :: is => i.mapProviders (cellsFrom n) :: placeImports (n + i.shown.length) is

def ModuleRecord.place (n : Nat) (m : ModuleRecord) : ModuleRecord Cell :=
  { m with
    imports := placeImports (n + m.providers.length) m.imports
    providers := cellsFrom n m.providers }

def placeEntries : Nat → List (String × ModuleRecord) → List (String × ModuleRecord Cell)
  | _, [] => []
  | n, (name, m) :: es => (name, m.place n) :: placeEntries (n + m.held.length) es

theorem keys_placeEntries (n : Nat) (es : List (String × ModuleRecord)) :
    (placeEntries n es).map Prod.fst = es.map Prod.fst := by
  induction es generalizing n with
  | nil => rfl
  | cons e es ih =>
    obtain ⟨name, m⟩ := e
    simp only [placeEntries, List.map_cons, ih]

/-- The graph in a store of its own, in which nothing is shared yet. -/
def ModuleMap.share (m : ModuleMap) : SharedGraph where
  store := (m.records.flatMap (·.held)).toArray
  modules := ⟨placeEntries 0 m.entries, by simpa only [keys_placeEntries] using m.nodup⟩

end ModuleGraph
