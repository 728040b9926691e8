/-! The records of a module graph: modules, what they import and what they provide. The
providers of a module are records, unless a type says what stands for them. -/

namespace ModuleGraph

/-- An injectable unit of a module. `kind` is `class`, `value` or `factory`; `provide` is
the token it is injected by, and absent fields are those its declaration leaves out. -/
structure ProviderRecord where
  name : String
  kind : String
  dependencies : List String := []
  isInjectable : Bool := false
  provide : Option String := none
  useClass : Option String := none
  useValue : Option String := none
  useFactory : Option String := none
  inject : Option (List String) := none
  deriving DecidableEq, Repr

structure Snapshot (Provider : Type := ProviderRecord) where
  name : String
  providers : List Provider := []
  controllers : List String := []
  deriving DecidableEq, Repr

/-- One entry of a module's imports. `path` is the specifier it was imported from until
linking replaces it by the file that declares it. -/
structure ImportRecord (Provider : Type := ProviderRecord) where
  name : String
  path : Option String := none
  isAsync : Bool := false
  isForwardReference : Bool := false
  dependencies : List String := []
  snapshot : Option (Snapshot Provider) := none
  deriving DecidableEq, Repr

structure ModuleRecord (Provider : Type := ProviderRecord) where
  name : String
  filePath : Option String := none
  imports : List (ImportRecord Provider) := []
  exports : List String := []
  providers : List Provider := []
  controllers : List String := []
  entityCount : Int := 0
  deriving DecidableEq, Repr

section Providers

variable {α β : Type}

def Snapshot.mapProviders (f : List α → List β) (s : Snapshot α) : Snapshot β :=
  { s with providers := f s.providers }

def ImportRecord.mapProviders (f : List α → List β) (i : ImportRecord α) : ImportRecord β :=
  { i with snapshot := i.snapshot.map (·.mapProviders f) }

/-- Applies a function to the providers of a module and to those that its imports show. -/
def ModuleRecord.mapProviders (f : List α → List β) (m : ModuleRecord α) : ModuleRecord β :=
  { m with
    imports := m.imports.map (·.mapProviders f)
    providers := f m.providers }

end Providers

end ModuleGraph
