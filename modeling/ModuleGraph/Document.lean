import ModuleGraph.Json.Reader
import ModuleGraph.Json.Writer
import ModuleGraph.ModuleMap

/-! The saved form of a module graph: a list of pairs of a name and a module. Reading
accepts more than writing produces, so what a document holds is kept as it is found, and
`ModuleEntry.record?` tells whether it is a proper record. -/

namespace ModuleGraph

structure ProviderEntry where
  name : Value
  kind : Value
  dependencies : List Value
  isInjectable : Value
  provide : Value
  useClass : Value
  useValue : Value
  useFactory : Value
  inject : Value

structure SnapshotEntry where
  name : Value
  providers : List ProviderEntry
  controllers : List Value

structure ImportEntry where
  name : Value
  path : Value
  isAsync : Value
  isForwardReference : Value
  dependencies : List Value
  snapshot : Option SnapshotEntry

/-- A module as a document holds it. An absent optional field is null. -/
structure ModuleEntry where
  name : Value
  filePath : Value
  imports : List ImportEntry
  exports : List Value
  providers : List ProviderEntry
  controllers : List Value
  entityCount : Value

/-- The entries of a document: names may be any atomic value. -/
abbrev Document := List (Value × ModuleEntry)

/-- A field that is left out when it is null. -/
def optionalField (key : String) (v : Value) : List (String × Value) :=
  match v with
  | .null => []
  | v => [(key, v)]

def ProviderEntry.toValue (p : ProviderEntry) : Value :=
  .table <|
    [("name", p.name), ("type", p.kind), ("dependencies", .list p.dependencies),
      ("isInjectable", p.isInjectable)] ++
    optionalField "provide" p.provide ++ optionalField "useClass" p.useClass ++
    optionalField "useValue" p.useValue ++ optionalField "useFactory" p.useFactory ++
    optionalField "inject" p.inject

def SnapshotEntry.toValue (s : SnapshotEntry) : Value :=
  .table
    [("name", s.name), ("providers", .list (s.providers.map (·.toValue))),
      ("controllers", .list s.controllers)]

def ImportEntry.toValue (i : ImportEntry) : Value :=
  .table <|
    [("name", i.name)] ++ optionalField "path" i.path ++
    [("isAsync", i.isAsync), ("isForwardReference", i.isForwardReference),
      ("dependencies", .list i.dependencies)] ++
    match i.snapshot with
    | some s => [("module", s.toValue)]
    | none => []

def ModuleEntry.toValue (m : ModuleEntry) : Value :=
  .table <|
    [("name", m.name)] ++ optionalField "filePath" m.filePath ++
    [("imports", .list (m.imports.map (·.toValue))), ("exports", .list m.exports),
      ("providers", .list (m.providers.map (·.toValue))), ("controllers", .list m.controllers),
      ("entityCount", m.entityCount)]

namespace Document

def toValue (d : Document) : Value :=
  .list (d.map (fun e => .list [e.1, e.2.toValue]))

def render (d : Document) : String :=
  Json.render d.toValue

inductive Error where
  | notJson (fault : Json.Fault)
  | missingKey (key : String)
  | wrongType
  | wrongLength
  | notATable
  deriving DecidableEq, Repr

def items (v : Value) : Except Error (List Value) :=
  match v.items? with
  | some vs => .ok vs
  | none => .error .wrongType

def required (v : Value) (key : String) : Except Error Value :=
  match v with
  | .table entries =>
    match entries.lookup key with
    | some found => .ok found
    | none => .error (.missingKey key)
  | _ => .error .wrongType

def optional (v : Value) (key : String) (default : Value) : Value :=
  (v.get? key).getD default

def itemsOf (v : Value) (key : String) : Except Error (List Value) :=
  items (optional v key (.list []))

def readProvider (v : Value) : Except Error ProviderEntry := do
  let name ← required v "name"
  let kind ← required v "type"
  let dependencies ← itemsOf v "dependencies"
  return {
    name, kind, dependencies
    isInjectable := optional v "isInjectable" (.bool false)
    provide := optional v "provide" .null
    useClass := optional v "useClass" .null
    useValue := optional v "useValue" .null
    useFactory := optional v "useFactory" .null
    inject := optional v "inject" .null }

def readSnapshot (v : Value) : Except Error SnapshotEntry := do
  let name ← required v "name"
  let providers ← (← itemsOf v "providers").mapM readProvider
  let controllers ← itemsOf v "controllers"
  return { name, providers, controllers }

def readImport (v : Value) : Except Error ImportEntry := do
  match v with
  | .table _ => pure ()
  | _ => throw .notATable
  let name ← required v "name"
  let dependencies ← itemsOf v "dependencies"
  let snapshot ←
    match optional v "module" .null with
    | .null => pure none
    | s => some <$> readSnapshot s
  return {
    name, dependencies, snapshot
    path := optional v "path" .null
    isAsync := optional v "isAsync" (.bool false)
    isForwardReference := optional v "isForwardReference" (.bool false) }

def readModule (v : Value) : Except Error ModuleEntry := do
  let name ← required v "name"
  let imports ← (← itemsOf v "imports").mapM readImport
  let exports ← itemsOf v "exports"
  let providers ← (← itemsOf v "providers").mapM readProvider
  let controllers ← itemsOf v "controllers"
  return {
    name, imports, exports, providers, controllers
    filePath := optional v "filePath" .null
    entityCount := optional v "entityCount" (.int 0) }

/-- The whole number that a value stands for. -/
def number? : Value → Option Int
  | .bool b => some (if b then 1 else 0)
  | .int n => some n
  | .decimal s => (s.dropSuffix? ".0").bind (·.toInt?)
  | _ => none

/-- Whether two atomic values are the same name. A truth value and a decimal number are the
same name as the whole number that they stand for. -/
def sameName (a b : Value) : Bool :=
  match a, b with
  | .null, .null => true
  | .text s, .text t => s = t
  | .decimal s, .decimal t => s = t || (number? a = some 0 && number? b = some 0)
  | a, b =>
    match number? a, number? b with
    | some m, some n => m = n
    | _, _ => false

/-- Adds an entry. A name that is present keeps its place and spelling. -/
def put (name : Value) (m : ModuleEntry) : Document → Document
  | [] => [(name, m)]
  | (k, v) :: rest => if sameName k name then (k, m) :: rest else (k, v) :: put name m rest

def readPair (d : Document) (v : Value) : Except Error Document := do
  match ← items v with
  | [name, m] =>
    let m ← readModule m
    if name.isAtomic then return put name m d else throw .wrongType
  | _ => throw .wrongLength

def ofValue (v : Value) : Except Error Document := do
  (← items v).foldlM readPair []

def load (text : String) : Except Error Document :=
  match Json.parse text with
  | .ok v => ofValue v
  | .error fault => .error (.notJson fault)

end Document

def optionalText : Option String → Value
  | some s => .text s
  | none => .null

def texts (ss : List String) : List Value := ss.map .text

def ProviderRecord.entry (p : ProviderRecord) : ProviderEntry where
  name := .text p.name
  kind := .text p.kind
  dependencies := texts p.dependencies
  isInjectable := .bool p.isInjectable
  provide := optionalText p.provide
  useClass := optionalText p.useClass
  useValue := optionalText p.useValue
  useFactory := optionalText p.useFactory
  inject := match p.inject with
    | some tokens => .list (texts tokens)
    | none => .null

def Snapshot.entry (s : Snapshot) : SnapshotEntry where
  name := .text s.name
  providers := s.providers.map (·.entry)
  controllers := texts s.controllers

def ImportRecord.entry (i : ImportRecord) : ImportEntry where
  name := .text i.name
  path := optionalText i.path
  isAsync := .bool i.isAsync
  isForwardReference := .bool i.isForwardReference
  dependencies := texts i.dependencies
  snapshot := i.snapshot.map (·.entry)

def ModuleRecord.entry (m : ModuleRecord) : ModuleEntry where
  name := .text m.name
  filePath := optionalText m.filePath
  imports := m.imports.map (·.entry)
  exports := texts m.exports
  providers := m.providers.map (·.entry)
  controllers := texts m.controllers
  entityCount := .int m.entityCount

def ModuleMap.document (m : ModuleMap) : Document :=
  m.entries.map (fun e => (.text e.1, e.2.entry))

namespace Value

def text? : Value → Option String
  | .text s => some s
  | _ => none

def bool? : Value → Option Bool
  | .bool b => some b
  | _ => none

def int? : Value → Option Int
  | .int n => some n
  | _ => none

/-- A text that may be absent; none for any other value. -/
def optionalText? : Value → Option (Option String)
  | .null => some none
  | .text s => some (some s)
  | _ => none

def optionalTexts? : Value → Option (Option (List String))
  | .null => some none
  | .list vs => some <$> vs.mapM text?
  | _ => none

end Value

def ProviderEntry.record? (p : ProviderEntry) : Option ProviderRecord := do
  return {
    name := ← p.name.text?
    kind := ← p.kind.text?
    dependencies := ← p.dependencies.mapM (·.text?)
    isInjectable := ← p.isInjectable.bool?
    provide := ← p.provide.optionalText?
    useClass := ← p.useClass.optionalText?
    useValue := ← p.useValue.optionalText?
    useFactory := ← p.useFactory.optionalText?
    inject := ← p.inject.optionalTexts? }

def SnapshotEntry.record? (s : SnapshotEntry) : Option Snapshot := do
  return {
    name := ← s.name.text?
    providers := ← s.providers.mapM (·.record?)
    controllers := ← s.controllers.mapM (·.text?) }

def ImportEntry.record? (i : ImportEntry) : Option ImportRecord := do
  return {
    name := ← i.name.text?
    path := ← i.path.optionalText?
    isAsync := ← i.isAsync.bool?
    isForwardReference := ← i.isForwardReference.bool?
    dependencies := ← i.dependencies.mapM (·.text?)
    snapshot := ← match i.snapshot with
      | some s => some <$> s.record?
      | none => some none }

def ModuleEntry.record? (m : ModuleEntry) : Option ModuleRecord := do
  return {
    name := ← m.name.text?
    filePath := ← m.filePath.optionalText?
    imports := ← m.imports.mapM (·.record?)
    exports := ← m.exports.mapM (·.text?)
    providers := ← m.providers.mapM (·.record?)
    controllers := ← m.controllers.mapM (·.text?)
    entityCount := ← m.entityCount.int? }

/-- The modules of a document that holds proper records under names that are texts. -/
def Document.modules? (d : Document) : Option ModuleMap := do
  let pairs ← d.mapM (fun e => do return (← e.1.text?, ← e.2.record?))
  return ModuleMap.ofList pairs

/-- The saved text of a module graph. Every number is written in full, and `Json.digitLimit` is a
limit on reading only. -/
def ModuleMap.renderJson (m : ModuleMap) : String :=
  m.document.render

end ModuleGraph
