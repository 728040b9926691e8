import ModuleGraph.TypeScript.Grammar

/-! Types. Only a type's head is kept: which name it refers to, if it refers to one. -/

namespace ModuleGraph.TypeScript

namespace Reader

def predefinedTypes : List String :=
  ["any", "number", "boolean", "string", "symbol", "void", "unknown", "never", "object"]

/-- Words that stand for their own value. -/
def literalWords : List String := ["true", "false", "null", "undefined"]

def typeOperators : List String := ["keyof", "unique", "readonly", "infer", "asserts"]

def typeStarts : List Char := "\x7b[(\"'\x60".toList

/-- Reads a punctuation mark that is not the start of the longer mark `longer`. -/
def markBut (mark longer : String) : Reader Unit := do
  require (!(← looksAt longer))
  symbol mark

def typeArguments (g : Grammar) : Reader Node := do
  let s ← start
  symbol "<"
  let types ← separated g.size "," g.type
  let _ ← accept ","
  symbol ">"
  node s (.other "type_arguments") types

def typeParameter (g : Grammar) : Reader Unit := do
  let _ ← many 3 do
    let w ← word
    require (["const", "in", "out"].contains w)
    require ((← peekWord).isSome)
  let _ ← word
  if ← acceptKeyword "extends" then let _ ← g.type
  if ← accept "=" then let _ ← g.type

def typeParameters (g : Grammar) : Reader Unit := do
  let _ ← optional do
    symbol "<"
    let _ ← listUntil ">" (typeParameter g) g.size

/-- Reads a type or, in its place, a statement about a parameter such as `x is T`. -/
def typeOrPredicate (g : Grammar) : Reader Node := do
  let s ← start
  let predicate : Reader Node := do
    let asserted ← acceptKeyword "asserts"
    let _ ← word
    if ← acceptKeyword "is" then let _ ← g.type
    else require (asserted && !(← looksAt "."))
    opaqueNode s "type_predicate"
  predicate <|> g.type

/-- Reads the start of a parameter list: its bracket and what tells a parameter from a
type. -/
def parametersStart : Reader Unit := do
  symbol "("
  let cs ← ahead
  if ").\x7b[@".toList.contains (cs.headD ' ') then return
  let _ ← word
  let next ← ahead
  require (startsWord next || ":,?)=".toList.contains (next.headD ' '))

def functionType (g : Grammar) : Reader Node := do
  let s ← start
  typeParameters g
  require (← canRead parametersStart)
  parentheses
  symbol "=>"
  let _ ← typeOrPredicate g
  opaqueNode s "function_type"

/-- Reads names joined by points, at least `least` behind the first. -/
def qualifiedName (g : Grammar) (least : Nat) : Reader Unit := do
  let _ ← word
  let more ← many g.size (markBut "." "..." *> word)
  require (least ≤ more.length)

def typeReference (g : Grammar) : Reader Node := do
  let s ← start
  let _ ← word
  let more ← many g.size (markBut "." "..." *> word)
  let name ← node s (if more.isEmpty then .typeIdentifier else .nestedTypeIdentifier) []
  match ← optional (typeArguments g) with
  | some arguments => node s .genericType [name.inRole .name, arguments]
  | none => return name

def wordType (g : Grammar) : Reader Node := do
  let s ← start
  let some w ← peekWord | failure
  if w = "new" || w = "abstract" then
    let constructorType : Reader Node := do
      let _ ← acceptKeyword "abstract"
      keyword "new"
      let _ ← functionType g
      opaqueNode s "constructor_type"
    constructorType <|> typeReference g
  else if w = "typeof" then
    keyword "typeof"
    if ← acceptKeyword "import" then
      parentheses
      let _ ← many g.size (symbol "." *> word)
    else qualifiedName g 0
    let _ ← optional (typeArguments g)
    opaqueNode s "type_query"
  else if w = "import" then
    keyword "import"
    parentheses
    let _ ← many g.size (symbol "." *> word)
    let _ ← optional (typeArguments g)
    opaqueNode s "import_type"
  else
    let plain : Reader Node := do
      let _ ← word
      require (!(← looksAt "."))
      if predefinedTypes.contains w then opaqueNode s "predefined_type"
      else if literalWords.contains w then opaqueNode s "literal_type"
      else if w = "this" then opaqueNode s "this_type"
      else failure
    plain <|> typeReference g

def primaryType (g : Grammar) : Reader Node := do
  let s ← start
  match (← ahead) with
  | '{' :: _ => braces *> opaqueNode s "object_type"
  | '[' :: _ => brackets *> opaqueNode s "tuple_type"
  | '(' :: _ => functionType g <|> (parentheses *> opaqueNode s "parenthesized_type")
  | '<' :: _ => functionType g
  | '\x60' :: _ => template *> opaqueNode s "template_literal_type"
  | '"' :: _ | '\'' :: _ => string *> opaqueNode s "literal_type"
  | '*' :: _ => symbol "*" *> opaqueNode s "existential_type"
  | '-' :: _ => symbol "-" *> number *> opaqueNode s "literal_type"
  | _ => wordType g <|> (number *> opaqueNode s "literal_type")

def postfixType (g : Grammar) : Reader Node := do
  let s ← start
  let primary ← primaryType g
  let groups ← many g.size brackets
  if groups.isEmpty then return primary else opaqueNode s "array_type"

def operatorType (g : Grammar) : Reader Node := do
  let s ← start
  let operators ← many g.size do
    let w ← word
    require (typeOperators.contains w)
    let next ← ahead
    require (startsWord next || typeStarts.contains (next.headD ' '))
    return w
  let maybe ← accept "?"
  let operand ← postfixType g
  if operators.isEmpty && !maybe then return operand
  else
    if operators.contains "infer" then
      let _ ← optional do
        keyword "extends"
        let _ ← postfixType g
        require (!(← looksAt "?"))
    opaqueNode s "operator_type"

/-- Reads types joined by `|` or `&`, either of which may also come first. -/
def unionType (g : Grammar) : Reader Node := do
  let s ← start
  let bar : Reader Unit := markBut "|" "||" <|> markBut "&" "&&"
  let leading ← optional bar
  let first ← operatorType g
  let more ← many g.size do
    bar
    let _ ← optional bar
    operatorType g
  if leading.isNone && more.isEmpty then return first else opaqueNode s "union_type"

def type (g : Grammar) : Reader Node := do
  let s ← start
  let subject ← unionType g
  let choice : Reader Node := do
    keyword "extends"
    let _ ← unionType g
    symbol "?"
    let _ ← g.type
    symbol ":"
    let _ ← g.type
    opaqueNode s "conditional_type"
  choice <|> return subject

def typeMark (g : Grammar) : Reader Node := do
  let s ← start
  symbol ":"
  let annotated ← typeOrPredicate g
  node s (.other "type_annotation") [annotated]

end Reader

end ModuleGraph.TypeScript
