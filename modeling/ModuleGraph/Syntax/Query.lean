import ModuleGraph.Syntax.Node

/-! Questions to a syntax tree that involve one node and its near descendants:
classes at file level, decorators, call arguments and object properties. -/

namespace ModuleGraph

/-- A class at file level with the decorators written before `export` and those written
on the class itself. -/
structure ClassDeclaration where
  node : Node
  name : Option String
  decorators : List Node

namespace Node

def isClass (n : Node) : Bool :=
  n.kind = .classDeclaration || n.kind = .abstractClassDeclaration

def decorators (n : Node) : List Node :=
  n.children.filter (fun c => c.kind = .decorator)

def asClass (n : Node) (outer : List Node) : ClassDeclaration where
  node := n
  name := (n.child? .name).map (·.text)
  decorators := outer ++ n.decorators

def declaredClass? (stmt : Node) : Option ClassDeclaration :=
  if stmt.isClass then some (stmt.asClass [])
  else if stmt.kind = .exportStatement then
    match stmt.child? .declaration with
    | some decl => if decl.isClass then some (decl.asClass stmt.decorators) else none
    | none => none
  else none

def topLevelClasses (root : Node) : List ClassDeclaration :=
  root.namedChildren.filterMap declaredClass?

def decoratorExpression? (decorator : Node) : Option Node :=
  decorator.elements.head?

/-- The name of an identifier, or the last name of a member access. -/
def simpleName? (n : Node) : Option String :=
  match n.kind with
  | .identifier => some n.text
  | .memberExpression => (n.child? .property).map (·.text)
  | _ => none

def decoratorName? (decorator : Node) : Option String :=
  match decorator.decoratorExpression? with
  | none => none
  | some expr =>
    if expr.kind = .callExpression then (expr.child? .function).bind simpleName?
    else expr.simpleName?

def callArguments (call : Node) : List Node :=
  match call.child? .arguments with
  | some arguments => arguments.elements
  | none => []

/-- Whether a node is a `name: value` pair whose key is the plain word `name`. -/
def isPairFor (name : String) (n : Node) : Bool :=
  n.kind = .pair &&
    match n.child? .key with
    | some key => key.kind = .propertyIdentifier && key.text = name
    | none => false

/-- The value of the first pair with the plain key `name` in an object literal. -/
def property? (object : Node) (name : String) : Option Node :=
  (object.namedChildren.find? (isPairFor name)).bind (·.child? .value)

def arrayProperty? (object : Node) (name : String) : Option (List Node) :=
  match object.property? name with
  | some value => if value.kind = .array then some value.elements else none
  | none => none

/-- The text between the first and the last character, which are the quotes of a
string literal. Escapes stay as they are written. -/
def unquoted (n : Node) : String :=
  String.ofList (n.text.toList.drop 1).dropLast

def nameOrString? (n : Node) : Option String :=
  match n.kind with
  | .identifier => some n.text
  | .string => some n.unquoted
  | _ => none

end Node

def findDecorator (decorators : List Node) (name : String) : Option Node :=
  decorators.find? (fun d => d.decoratorName? = some name)

end ModuleGraph
