import ModuleGraph.Closure
import ModuleGraph.Notice
import ModuleGraph.Sharing
import Std.Data.HashMap

/-! Resolving the names in a module graph against the whole graph: imports to the modules
they name, and dependencies to the providers they ask for. Linking visits each module once
and changes records in place, so a snapshot taken early shows what is linked later. -/

namespace ModuleGraph

/-- The names that a provider answers to: its own and its token. -/
def ProviderRecord.answersTo (p : ProviderRecord) : List String :=
  p.name :: p.provide.toList

def ProviderRecord.relink (rename : String → String) (p : ProviderRecord) : ProviderRecord :=
  { p with dependencies := p.dependencies.map rename }

section Imports

variable {α : Type}

/-- The part of a module that an import of it shows. -/
def ModuleRecord.snapshot (m : ModuleRecord α) : Snapshot α :=
  ⟨m.name, m.providers, m.controllers⟩

def ImportRecord.relink (modules : ModuleMap α) (i : ImportRecord α) : ImportRecord α :=
  let target := modules.find? i.name
  { i with path := target.bind (·.filePath), snapshot := target.map (·.snapshot) }

def ModuleRecord.relinkImports (modules : ModuleMap α) (m : ModuleRecord α) : ModuleRecord α :=
  { m with imports := m.imports.map (·.relink modules) }

end Imports

namespace SharedGraph

/-- Enters a cell under the names its record answers to, unless they are taken. -/
def indexCell (store : Array ProviderRecord) (index : Std.HashMap String Cell) (c : Cell) :
    Std.HashMap String Cell :=
  match store[c]? with
  | some p => p.answersTo.foldl (fun index key => index.insertIfNew key c) index
  | none => index

def index (g : SharedGraph) : Std.HashMap String Cell :=
  g.cells.foldl (indexCell g.store) ∅

/-- The name, as the store has it, of the provider that answers to a dependency. A dependency
that no provider answers to stays as it is. -/
def resolve (index : Std.HashMap String Cell) (store : Array ProviderRecord) (d : String) :
    String :=
  ((index[d]?.bind (fun c => store[c]?)).map (·.name)).getD d

def relinkCell (index : Std.HashMap String Cell) (store : Array ProviderRecord) (c : Cell) :
    Array ProviderRecord :=
  store.modify c (·.relink (resolve index store))

/-- Links one module: its imports to the modules as they are now, then its providers. -/
def linkModule (index : Std.HashMap String Cell) (g : SharedGraph) (name : String) :
    SharedGraph :=
  match g.modules.find? name with
  | some m =>
    { store := m.providers.foldl (relinkCell index) g.store
      modules := g.modules.insert name (m.relinkImports g.modules) }
  | none => g

/-- Links the modules one after the other. The index is made once, before the first. -/
def link (g : SharedGraph) : SharedGraph :=
  g.modules.names.foldl (linkModule g.index) g

end SharedGraph

namespace ModuleMap

def link (m : ModuleMap) : ModuleMap :=
  m.share.link.view

def linkNotice (m : ModuleMap) : Notice :=
  let index := m.share.index
  let imports := m.records.flatMap (·.imports)
  let dependencies := m.providers.flatMap (·.dependencies)
  .linked (imports.countP (fun i => m.contains i.name))
    (dependencies.countP (fun d => index.contains d)) m.size

/-- The dependencies of the first provider that answers to each name or token. -/
def dependencyTable (m : ModuleMap) : DependencyTable :=
  m.providers.flatMap (fun p => p.answersTo.map (·, p.dependencies))

def closure (m : ModuleMap) (name : String) : List String :=
  m.dependencyTable.closure name

end ModuleMap

end ModuleGraph
