import ModuleGraph.TypeScript.Part

/-! Classes: decorators, heritage, members, and the parameters of their methods. -/

namespace ModuleGraph.TypeScript

namespace Reader

/-- Reads names joined by points as nested member accesses. -/
def memberChain (s : Cursor) (object : Node) : Nat → Reader Node
  | 0 => failure
  | limit + 1 => do
    if ← accept "." then
      let property ← name .propertyIdentifier
      let access ← node s .memberExpression [object.inRole .object, property.inRole .property]
      memberChain s access limit
    else return object

/-- Reads a decorator: a name, a call of one, or an expression in round brackets. -/
def decorator (g : Grammar) : Reader Node := do
  let s ← start
  symbol "@"
  let e ← start
  let applied : Reader Node := do
    let head ← name .identifier
    let callee ← memberChain e head g.size
    let call : Reader Node := do
      let types ← optional (typeArguments g)
      let taken ← arguments g
      node e .callExpression
        (callee.inRole .function :: types.toList ++ [taken.inRole .arguments])
    call <|> pure callee
  let expression ← applied <|> (parentheses *> opaqueNode e "parenthesized_expression")
  node s .decorator [expression]

def decorators (g : Grammar) : Reader (List Node) :=
  many g.size (decorator g)

def parameterModifiers : List String :=
  ["public", "private", "protected", "override", "readonly"]

/-- Reads the name of a parameter, or a pattern that takes it apart. -/
def pattern : Reader Unit := do
  match (← ahead) with
  | '{' :: _ => braces
  | '[' :: _ => brackets
  | _ =>
    let _ ← word

def parameter (g : Grammar) : Reader Node := do
  let s ← start
  let applied ← decorators g
  let _ ← many g.size do
    let w ← word
    require (parameterModifiers.contains w)
    let cs ← ahead
    require (startsWord cs || "\x7b[.".toList.contains (cs.headD ' '))
  let _ ← accept "..."
  pattern
  let omissible ← accept "?"
  let mark ← optional (typeMark g)
  if ← accept "=" then
    let _ ← g.expression true
  node s (if omissible then .optionalParameter else .requiredParameter)
    (applied ++ (mark.map (·.inRole .type)).toList)

def parameters (g : Grammar) : Reader Node := do
  let s ← start
  symbol "("
  let taken ← listUntil ")" (parameter g) g.size
  node s (.other "formal_parameters") taken

def memberModifiers : List String :=
  ["public", "private", "protected", "static", "abstract", "override", "readonly", "declare",
    "accessor", "async", "get", "set", "export"]

/-- Reads the end of a member or a statement: a semicolon, or the end of a line, of a block
or of the source. -/
def terminator : Reader Unit := do
  if ← accept ";" then return
  require ((← onNewLine) || (← ahead).isEmpty || (← looksAt "\x7d"))

def memberEnd : Reader Unit := do
  if ← accept "," then return else terminator

/-- Reads a method: with a block it is defined here, without one only announced. -/
def method (g : Grammar) (s : Cursor) (isAbstract : Bool) (memberName : Node) : Reader Node := do
  let taken ← signature g (parameters g)
  let parts := [memberName.inRole .name, taken.inRole .parameters]
  if ← looksAt "\x7b" then
    let body ← block
    node s .methodDefinition (parts ++ [body.inRole .body])
  else
    let announced ←
      node s (if isAbstract then .other "abstract_method_signature" else .methodSignature) parts
    memberEnd
    return announced

def classField (g : Grammar) (s : Cursor) (memberName : Node) : Reader Node := do
  let mark ← optional (typeMark g)
  if ← accept "=" then
    let _ ← g.expression false
  let field ← node s (.other "public_field_definition")
    (memberName.inRole .name :: (mark.map (·.inRole .type)).toList)
  memberEnd
  return field

def classMember (g : Grammar) : Reader Node := do
  let s ← start
  let staticBlock : Reader Node := do
    keyword "static"
    let body ← block
    node s (.other "class_static_block") [body.inRole .body]
  let empty : Reader Node := do
    symbol ";"
    opaqueNode s "empty"
  let named : Reader Node := do
    let words ← modifiers g memberModifiers
    let _ ← accept "*"
    let memberName ← propertyName
    let _ ← optional (symbol "?" <|> symbol "!")
    if (← looksAt "(") || (← looksAt "<") then method g s (words.contains "abstract") memberName
    else classField g s memberName
  decorator g <|> staticBlock <|> empty <|> named

def classBody (g : Grammar) : Reader Node := do
  let s ← start
  symbol "\x7b"
  let members ← many g.size (classMember g)
  symbol "\x7d"
  node s (.other "class_body") members

def heritage (g : Grammar) : Reader Unit := do
  if ← acceptKeyword "extends" then
    let _ ← separated g.size "," do
      let _ ← g.operand true
      optional (typeArguments g)
  if ← acceptKeyword "implements" then
    let _ ← separated g.size "," g.type

/-- Reads a class from behind its decorators on. A declaration has a name; an expression
may lack one. -/
def classFrom (g : Grammar) (s : Cursor) (applied : List Node) (isDeclaration : Bool) :
    Reader Node := do
  let isAbstract ← acceptKeyword "abstract"
  keyword "class"
  let named : Reader Node := do
    let n ← name .typeIdentifier
    require (n.text ≠ "extends" && n.text ≠ "implements")
    return n
  let className ← if isDeclaration then some <$> named else optional named
  typeParameters g
  heritage g
  let body ← classBody g
  let kind : Kind :=
    if !isDeclaration then .other "class"
    else if isAbstract then .abstractClassDeclaration else .classDeclaration
  node s kind (applied ++ (className.map (·.inRole .name)).toList ++ [body.inRole .body])

end Reader

end ModuleGraph.TypeScript
