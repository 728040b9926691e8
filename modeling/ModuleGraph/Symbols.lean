import ModuleGraph.Syntax.Query

/-! File-local symbols: where an imported name comes from, which classes a file
declares, and which types their constructors ask for. -/

namespace ModuleGraph

/-- Specifiers below this package root are known by their last segment. -/
def frameworkRoot : String := "@nestjs/"

def lastSegment (path : String) : String :=
  String.ofList (path.toList.reverse.takeWhile (· ≠ '/')).reverse

def recordedSpecifier (specifier : String) : String :=
  if frameworkRoot.toList.isPrefixOf specifier.toList then lastSegment specifier else specifier

namespace Node

/-- The local name of an import specifier: its alias if it has one. -/
def localName? (specifier : Node) : Option String :=
  match specifier.child? .asName with
  | some renamed => some renamed.text
  | none => (specifier.child? .name).map (·.text)

def boundNames (part : Node) : List String :=
  match part.kind with
  | .identifier => [part.text]
  | .namespaceImport =>
    (part.namedChildren.filter (fun c => c.kind = .identifier)).map (·.text)
  | .namedImports =>
    (part.namedChildren.filter (fun c => c.kind = .importSpecifier)).filterMap localName?
  | _ => []

def importClause? (stmt : Node) : Option Node :=
  stmt.namedChildren.find? (fun c => c.kind = .importClause)

def imports (stmt : Node) (name : String) : Bool :=
  stmt.kind = .importStatement &&
    match stmt.importClause? with
    | some clause => (clause.namedChildren.flatMap boundNames).contains name
    | none => false

def specifier? (stmt : Node) : Option String :=
  match stmt.child? .source with
  | some source => if source.kind = .string then some (recordedSpecifier source.unquoted) else none
  | none => none

/-- The specifier that the first import of `name` names. -/
def importPath? (root : Node) (name : String) : Option String :=
  (root.namedChildren.find? (·.imports name)).bind specifier?

def class? (root : Node) (name : String) : Option ClassDeclaration :=
  root.topLevelClasses.find? (fun c => c.name = some name)

def isInjectable (root : Node) (name : String) : Bool :=
  match root.class? name with
  | some decl => (findDecorator decl.decorators "Injectable").isSome
  | none => false

/-- Whether a class member is a method, with or without a body, named `constructor`. -/
def isConstructor (member : Node) : Bool :=
  (member.kind = .methodDefinition || member.kind = .methodSignature) &&
    match member.child? .name with
    | some name => name.text = "constructor"
    | none => false

/-- Bounds the descent through `genericType` nodes. -/
def depth : Node → Nat
  | ⟨_, _, _, _, children⟩ => depths children + 1
where
  depths : List Node → Nat
    | [] => 0
    | c :: cs => max (depth c) (depths cs)

/-- The name that a type refers to: `Foo`, `ns.Foo`, or that of the head of `Foo<T>`. -/
def typeName? (type : Node) : Option String :=
  descend type.depth type
where
  descend : Nat → Node → Option String
    | 0, _ => none
    | limit + 1, n =>
      match n.kind with
      | .typeIdentifier | .nestedTypeIdentifier => some n.text
      | .genericType => ((n.child? .name).or n.elements.head?).bind (descend limit)
      | _ => none

def parameterType? (parameter : Node) : Option String :=
  if parameter.kind = .requiredParameter || parameter.kind = .optionalParameter then
    match (parameter.child? .type).bind (·.elements.head?) with
    | some type => type.typeName?.filter (fun name => !name.isEmpty)
    | none => none
  else none

end Node

namespace ClassDeclaration

/-- The named types of the parameters of the first constructor, in order. -/
def constructorTypes (decl : ClassDeclaration) : List String :=
  match decl.node.child? .body with
  | none => []
  | some body =>
    match (body.namedChildren.find? (·.isConstructor)).bind (·.child? .parameters) with
    | none => []
    | some parameters => parameters.namedChildren.filterMap (·.parameterType?)

end ClassDeclaration

def Node.constructorDependencies (root : Node) (name : String) : List String :=
  match root.class? name with
  | some decl => decl.constructorTypes
  | none => []

end ModuleGraph
