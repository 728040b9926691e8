import ModuleGraph.Extraction
import ModuleGraph.Sharing

/-! Reading the module of a file over and over with one reader, which fills in what providers
and imports depend on in the very records that it has returned. Its caches hold the places of
these records, so a later reading could change what an earlier one returned, and an earlier one
what a later one returns. -/

namespace ModuleGraph

/-- The module of a class before what it depends on is filled in, with placeholders counted from
`n`, and the next count. -/
def draftModule (root : Node) (file name : String) (n : Nat) : Option Node → ModuleRecord × Nat
  | none => ({ name := placeholder "Module" n }, n + 1)
  | some config =>
    let elements := (config.arrayProperty? "imports").getD []
    let (imports, next) := importRecords root n elements
    ({ name := name
       filePath := some file
       imports := imports
       exports := config.identifierList "exports"
       providers := ((config.arrayProperty? "providers").getD []).filterMap (provider? root)
       controllers := config.identifierList "controllers"
       entityCount := Int.ofNat (Node.entityTotal elements) }, next)

def draftNotices (root : Node) (file : String) (n : Nat) : Option Node → List Notice
  | none => [.noConfiguration file (placeholder "Module" n)]
  | some config =>
    importNotices file n ((config.arrayProperty? "imports").getD []) ++
      providerNotices root file ((config.arrayProperty? "providers").getD [])

def ModuleRecord.listed (m : ModuleRecord) : List String :=
  m.imports.map (·.name) ++ m.providers.map (·.name)

def tableIn (store : Array ProviderRecord) (cache : List (String × Cell)) : DependencyTable :=
  cache.map fun e => (e.1, (store[e.2]?.map (·.dependencies)).getD [])

/-- A reader of one file: the next placeholder number, the records that its readings have made,
and for each name the place of the latest record. -/
structure FileReader where
  nextId : Nat := 1
  store : Array ProviderRecord := #[]
  modules : Array (ModuleRecord Cell) := #[]
  providerCache : List (String × Cell) := []
  moduleCache : List (String × Nat) := []

namespace FileReader

/-- The module in a place, with its providers as they are now. -/
def module? (reader : FileReader) (place : Nat) : Option ModuleRecord :=
  reader.modules[place]?.map (·.mapProviders (recordsIn reader.store))

def table (reader : FileReader) : DependencyTable :=
  tableIn reader.store reader.providerCache

def listed? (reader : FileReader) (name : String) : Option (List String) :=
  ((reader.moduleCache.lookup name).bind reader.module?).map (·.listed)

def addProvider (reader : FileReader) (p : ProviderRecord) : FileReader :=
  { reader with
    store := reader.store.push p
    providerCache := (p.name, reader.store.size) :: reader.providerCache }

def keep (reader : FileReader) (m : ModuleRecord) : FileReader :=
  let kept := m.providers.foldl addProvider reader
  { kept with
    modules := kept.modules.push (m.mapProviders (cellsFrom reader.store.size))
    moduleCache := (m.name, kept.modules.size) :: kept.moduleCache }

/-- Gives each import of the module in a place what the cached module of its name lists. -/
def fillImports (reader : FileReader) (place : Nat) : FileReader :=
  { reader with
    modules := reader.modules.modify place fun m =>
      { m with
        imports := m.imports.map fun i =>
          { i with dependencies := (reader.listed? i.name).getD [] } } }

def fillCell (store : Array ProviderRecord) (entry : Cell × List String) : Array ProviderRecord :=
  store.modify entry.1 fun p => { p with dependencies := entry.2 }

/-- Gives each provider in some cells the closure of its name. The closures are taken over the
cached records before any of them changes. -/
def fillProviders (reader : FileReader) (cells : List Cell) : FileReader :=
  let closures := (recordsIn reader.store cells).map fun p => reader.table.closure p.name
  { reader with store := (cells.zip closures).foldl fillCell reader.store }

/-- What one reading returns: the place of the module, if the file declares one. -/
structure Outcome where
  place : Option Nat
  reader : FileReader
  notices : List Notice

def Outcome.module (o : Outcome) : Option ModuleRecord :=
  o.place.bind o.reader.module?

def read (root : Node) (file : String) (reader : FileReader) : Outcome :=
  let classes := root.topLevelClasses
  let decoys := decoyNotices file classes
  match moduleClass? classes with
  | none => ⟨none, reader, decoys⟩
  | some (decl, name) =>
    let (draft, next) := draftModule root file name reader.nextId decl.configuration?
    let place := reader.modules.size
    let cells := cellsFrom reader.store.size draft.providers
    let kept := { reader with nextId := next }.keep draft
    { place := some place
      reader := (kept.fillImports place).fillProviders cells
      notices := decoys ++ draftNotices root file reader.nextId decl.configuration? }

def after (root : Node) (file : String) : Nat → FileReader → FileReader
  | 0, reader => reader
  | times + 1, reader => after root file times (reader.read root file).reader

def outcomes (root : Node) (file : String) : Nat → FileReader → List Outcome
  | 0, _ => []
  | times + 1, reader =>
    let outcome := reader.read root file
    outcome :: outcomes root file times outcome.reader

end FileReader

/-- The modules that a number of readings with one reader return, as they are after the last of
them, and all notices. -/
def rereadModules (root : Node) (file : String) (times : Nat) (reader : FileReader) :
    List (Option ModuleRecord) × List Notice :=
  let outcomes := reader.outcomes root file times
  let last := reader.after root file times
  (outcomes.map fun o => o.place.bind last.module?, outcomes.flatMap (·.notices))

end ModuleGraph
