import ModuleGraph.Closure
import ModuleGraph.Notice
import ModuleGraph.Record
import ModuleGraph.Symbols

/-! Reading the module that a file declares from its syntax tree: the imports, providers
and lists of its decorator, and the file-local closure of what each provider needs. -/

namespace ModuleGraph

structure ImportTarget where
  name : String
  isAsync : Bool
  isForwardReference : Bool

namespace Node

def returnedIdentifier? (f : Node) : Option String :=
  if f.kind = .arrowFunction then
    match f.child? .body with
    | some body => if body.kind = .identifier then some body.text else none
    | none => none
  else none

/-- The module that a call imports: `forwardRef(() => M)`, `M(…)` or `M.method(…)`. -/
def calledTarget? (call : Node) : Option ImportTarget :=
  match call.child? .function with
  | none => none
  | some callee =>
    if callee.kind = .identifier then
      if callee.text = "forwardRef" then
        (call.callArguments.head?.bind returnedIdentifier?).map (⟨·, true, true⟩)
      else some ⟨callee.text, true, false⟩
    else if callee.kind = .memberExpression then
      (callee.child? .object).map (fun object => ⟨object.text, true, false⟩)
    else none

def importTarget? (element : Node) : Option ImportTarget :=
  if element.kind = .identifier then some ⟨element.text, false, false⟩
  else if element.kind = .callExpression then element.calledTarget?
  else none

end Node

def placeholder (stem : String) (n : Nat) : String :=
  s!"{stem}_{n}"

/-- The imports of an array, with placeholders counted from `n`, and the next count. -/
def importRecords (root : Node) : Nat → List Node → List ImportRecord × Nat
  | n, [] => ([], n)
  | n, e :: es =>
    match e.importTarget? with
    | some target =>
      let (records, next) := importRecords root n es
      ({ name := target.name, path := root.importPath? target.name, isAsync := target.isAsync,
         isForwardReference := target.isForwardReference } :: records, next)
    | none =>
      let (records, next) := importRecords root (n + 1) es
      ({ name := placeholder "UnknownModule" n } :: records, next)

def importNotices (file : String) : Nat → List Node → List Notice
  | _, [] => []
  | n, e :: es =>
    match e.importTarget? with
    | some _ => importNotices file n es
    | none =>
      .importUnrecognised file e.text (placeholder "UnknownModule" n) ::
        importNotices file (n + 1) es

/-- Calls whose array argument lists entities. -/
def featureRegistrations : List String :=
  ["TypeOrmModule.forFeature", "MongooseModule.forFeature", "SequelizeModule.forFeature"]

def entityRoot : String := "TypeOrmModule"

namespace Node

def entityCount (element : Node) : Nat :=
  if element.kind = .callExpression then
    match element.child? .function, element.callArguments with
    | some callee, first :: _ =>
      if callee.kind = .memberExpression then
        (if featureRegistrations.contains callee.text && first.kind = .array then
          first.elements.length else 0) +
        (if (callee.child? .object).any (·.text = entityRoot) && first.kind = .object then
          ((first.arrayProperty? "entities").getD []).length else 0)
      else 0
    | _, _ => 0
  else 0

def entityTotal : List Node → Nat
  | [] => 0
  | e :: es => e.entityCount + entityTotal es

def identifierList (config : Node) (name : String) : List String :=
  (((config.arrayProperty? name).getD []).filter (fun e => e.kind = .identifier)).map (·.text)

/-- The names and strings that the array under a plain key lists. -/
def tokenList (object : Node) (name : String) : List String :=
  ((object.arrayProperty? name).getD []).filterMap nameOrString?

/-- An identifier's name, a string's contents, or the source text of anything else. -/
def rawValue (n : Node) : String :=
  n.nameOrString?.getD n.text

end Node

def classProvider (root : Node) (name : String) : ProviderRecord where
  name := name
  kind := "class"
  dependencies := root.constructorDependencies name
  isInjectable := root.isInjectable name
  provide := some name

/-- The provider that an object literal describes, unless it has no usable token. -/
def objectProvider? (root object : Node) : Option ProviderRecord :=
  match (object.property? "provide").bind (·.nameOrString?) with
  | none => none
  | some token =>
    let useClass := (object.property? "useClass").map (·.rawValue)
    let useFactory := (object.property? "useFactory").map (·.rawValue)
    let useValue := (object.property? "useValue").map (·.rawValue)
    let declared := (object.property? "inject").map (fun _ => object.tokenList "inject")
    let base : ProviderRecord :=
      { name := token, kind := "class", provide := some token, useClass := useClass,
        useValue := useValue, useFactory := useFactory, inject := declared }
    match useClass, useFactory, useValue with
    | some c, _, _ =>
      some { base with
        dependencies := root.constructorDependencies c
        isInjectable := root.isInjectable (if c.isEmpty then token else c) }
    | none, some _, _ =>
      let inject := declared.getD []
      some { base with kind := "factory", inject := some inject, dependencies := inject }
    | none, none, some _ => some { base with kind := "value" }
    | none, none, none => some { base with isInjectable := root.isInjectable token }

def provider? (root element : Node) : Option ProviderRecord :=
  match element.kind with
  | .identifier => some (classProvider root element.text)
  | .object => objectProvider? root element
  | _ => none

def providerNotices (root : Node) (file : String) (elements : List Node) : List Notice :=
  (elements.filter (fun e => (provider? root e).isNone)).map (.providerDropped file ·.text)

/-- Parts of a class name that mark it as a decoy. -/
def decoyParts : List String := ["Unknown", "Angular"]

def occursIn (part : List Char) : List Char → Bool
  | [] => part.isEmpty
  | c :: cs => part.isPrefixOf (c :: cs) || occursIn part cs

def isDecoy (name : String) : Bool :=
  decoyParts.any (fun part => occursIn part.toList name.toList)

def ClassDeclaration.moduleName? (decl : ClassDeclaration) : Option String :=
  if (findDecorator decl.decorators "Module").isSome then
    decl.name.filter (fun name => !name.isEmpty)
  else none

/-- The first of some classes that declares a module and is no decoy. -/
def moduleClass? (classes : List ClassDeclaration) : Option (ClassDeclaration × String) :=
  (classes.filterMap (fun c => c.moduleName?.map (c, ·))).find? (fun c => !isDecoy c.2)

def decoyNotices (file : String) (classes : List ClassDeclaration) : List Notice :=
  ((classes.filterMap (·.moduleName?)).takeWhile isDecoy).map (.decoySkipped file ·)

def ClassDeclaration.configuration? (decl : ClassDeclaration) : Option Node :=
  match (findDecorator decl.decorators "Module").bind (·.decoratorExpression?) with
  | none => none
  | some expr =>
    if expr.kind = .callExpression then
      match expr.callArguments with
      | first :: _ => if first.kind = .object then some first else none
      | [] => none
    else none

/-- What reading a file has met so far: the next placeholder number, the names that each
module imports and provides, and what each provider needs. The latest entry counts. -/
structure Memory where
  nextId : Nat := 1
  modules : List (String × List String) := []
  providers : DependencyTable := []

/-- Replaces what each provider needs by all that it needs in turn. The closures are taken
over what is remembered before any of them is filled in. -/
def enrichProviders (table : DependencyTable) (providers : List ProviderRecord) :
    List ProviderRecord :=
  providers.map (fun p => { p with dependencies := table.closure p.name })

/-- Gives each import the names that a module of that name is remembered with. -/
def enrichImports (modules : List (String × List String)) (imports : List ImportRecord) :
    List ImportRecord :=
  imports.map (fun i => { i with dependencies := (modules.lookup i.name).getD [] })

def remember (table : DependencyTable) (providers : List ProviderRecord) : DependencyTable :=
  providers.foldl (fun t p => (p.name, p.dependencies) :: t) table

structure Reading where
  module : Option ModuleRecord
  memory : Memory
  notices : List Notice

/-- The module of a class without a configuration object. -/
def emptyReading (file : String) (memory : Memory) : Reading :=
  let name := placeholder "Module" memory.nextId
  { module := some { name := name }
    memory := { memory with
      nextId := memory.nextId + 1
      modules := (name, []) :: memory.modules }
    notices := [.noConfiguration file name] }

def configuredReading (root : Node) (file name : String) (config : Node) (memory : Memory) :
    Reading :=
  let elements := (config.arrayProperty? "imports").getD []
  let provided := (config.arrayProperty? "providers").getD []
  let (imports, next) := importRecords root memory.nextId elements
  let providers := provided.filterMap (provider? root)
  let table := remember memory.providers providers
  let modules :=
    (name, imports.map (·.name) ++ providers.map (·.name)) :: memory.modules
  let enriched := enrichProviders table providers
  { module := some
      { name := name
        filePath := some file
        imports := enrichImports modules imports
        exports := config.identifierList "exports"
        providers := enriched
        controllers := config.identifierList "controllers"
        entityCount := Int.ofNat (Node.entityTotal elements) }
    memory := ⟨next, modules, remember table enriched⟩
    notices :=
      importNotices file memory.nextId elements ++ providerNotices root file provided }

/-- Reads the module of a file, going on from what earlier readings of it remember. -/
def readModule (root : Node) (file : String) (memory : Memory) : Reading :=
  let classes := root.topLevelClasses
  let decoys := decoyNotices file classes
  match moduleClass? classes with
  | none => ⟨none, memory, decoys⟩
  | some (decl, name) =>
    let reading :=
      match decl.configuration? with
      | none => emptyReading file memory
      | some config => configuredReading root file name config memory
    { reading with notices := decoys ++ reading.notices }

def readModules (root : Node) (file : String) :
    Nat → Memory → List (Option ModuleRecord) × List Notice
  | 0, _ => ([], [])
  | times + 1, memory =>
    let reading := readModule root file memory
    let (modules, notices) := readModules root file times reading.memory
    (reading.module :: modules, reading.notices ++ notices)

end ModuleGraph
