import ModuleGraph.TypeScript.Class

/-! Expressions. Calls, member accesses, arrays, object literals and arrow functions keep
their parts; of every other expression only the extent is kept. -/

namespace ModuleGraph.TypeScript

namespace Reader

/-- Words that no operand starts with. -/
def reservedWords : List String :=
  ["break", "case", "catch", "const", "continue", "debugger", "default", "delete", "do", "else",
    "enum", "export", "extends", "finally", "for", "if", "in", "instanceof", "return", "switch",
    "throw", "try", "typeof", "var", "void", "while", "with"]

/-- Words that are expressions of a kind of their own. -/
def selfWords : List String := ["this", "super", "null", "true", "false", "undefined"]

/-- Operators between two operands, longer ones before those they start with. -/
def binaryOperators : List String :=
  [">>>", "===", "!==", "**", "&&", "||", "??", "==", "!=", "<=", ">=", "<<", ">>", "+", "-", "*",
    "/", "%", "<", ">", "&", "|", "^"]

def assignmentOperators : List String :=
  [">>>=", "**=", "<<=", ">>=", "&&=", "||=", "??=", "+=", "-=", "*=", "/=", "%=", "&=", "|=",
    "^=", "="]

def binaryWords : List String := ["in", "instanceof"]

def castWords : List String := ["as", "satisfies"]

def unaryWords : List String := ["typeof", "void", "delete", "await"]

def unaryMarks : List String := ["++", "--", "!", "~", "+", "-"]

def oneOf : List String → Reader Unit
  | [] => failure
  | mark :: marks => symbol mark <|> oneOf marks

def wordOf (words : List String) : Reader Unit := do
  require (words.contains (← word))

def assignmentOperator : Reader Unit := do
  require (!(← looksAt "=>") && !(← looksAt "=="))
  oneOf assignmentOperators

def binaryOperator : Reader Unit := do
  require (!(← canRead assignmentOperator))
  oneOf binaryOperators <|> wordOf binaryWords

def sequence (g : Grammar) (inside : Bool) : Reader Node := do
  let s ← start
  match (← separated g.size "," (g.expression inside)) with
  | [e] => return e
  | _ => opaqueNode s "sequence_expression"

def objectMember (g : Grammar) : Reader Node := do
  let s ← start
  let pair : Reader Node := do
    let key ← propertyName
    symbol ":"
    let value ← g.expression true
    node s .pair [key.inRole .key, value.inRole .value]
  let method : Reader Node := do
    let _ ← modifiers g ["async", "get", "set", "static"]
    let _ ← accept "*"
    let memberName ← propertyName
    let _ ← accept "?"
    let taken ← signature g opaqueParameters
    let body ← block
    node s .methodDefinition
      [memberName.inRole .name, taken.inRole .parameters, body.inRole .body]
  let shorthand : Reader Node := do
    let _ ← word
    if ← accept "=" then
      let _ ← g.expression true
      opaqueNode s "object_assignment_pattern"
    else opaqueNode s "shorthand_property_identifier"
  let spread : Reader Node := do
    symbol "..."
    let _ ← g.expression true
    opaqueNode s "spread_element"
  pair <|> method <|> shorthand <|> spread

def object (g : Grammar) : Reader Node := do
  let s ← start
  symbol "\x7b"
  let members ← listUntil "\x7d" (objectMember g) g.size
  node s .object members

/-- Reads the parameters of an arrow function up to its arrow. -/
def arrowHead (g : Grammar) : Reader Unit := do
  let plain : Reader Unit := do
    let w ← word
    require (!reservedWords.contains w && !selfWords.contains w)
    require (← looksAt "=>")
  let full : Reader Unit := do
    let _ ← signature g opaqueParameters
    require (← looksAt "=>")
  plain <|> full

def arrowFunction (g : Grammar) (inside : Bool) : Reader Node := do
  let s ← start
  let async : Reader Unit := do
    keyword "async"
    require (!(← onNewLine))
    arrowHead g
  async <|> arrowHead g
  symbol "=>"
  let body ← if ← looksAt "\x7b" then block else g.expression inside
  node s .arrowFunction [body.inRole .body]

/-- Reads a function from its first keyword on. A declaration may lack the block. -/
def function (g : Grammar) (isDeclaration : Bool) : Reader Node := do
  let s ← start
  let _ ← optional do
    keyword "async"
    require (!(← onNewLine))
  keyword "function"
  let _ ← accept "*"
  let _ ← optional word
  let _ ← signature g opaqueParameters
  if isDeclaration && !(← looksAt "\x7b") then
    let announced ← opaqueNode s "function_signature"
    terminator
    return announced
  else
    let _ ← block
    opaqueNode s (if isDeclaration then "function_declaration" else "function_expression")

/-- Reads the instance that `new` makes. The class it names is read without calls. -/
def newExpression (g : Grammar) : Nat → Reader Node
  | 0 => failure
  | limit + 1 => do
    let s ← start
    keyword "new"
    if ← accept "." then
      let _ ← word
      return ← opaqueNode s "meta_property"
    let made : Reader Unit := do
      match (← ahead) with
      | '(' :: _ => parentheses
      | '[' :: _ => brackets
      | _ =>
        if ← looksAtWord "new" then
          let _ ← newExpression g limit
        else if ← looksAtWord "class" then
          let _ ← classFrom g s [] false
        else if (← looksAtWord "function") || (← looksAtWord "async") then
          let _ ← function g false <|> name .identifier
        else
          let _ ← name .identifier
    made
    let _ ← many g.size
      ((oneOf ["?.", "."] *> optional (symbol "#") *> word *> pure ()) <|> brackets <|>
        (symbol "!" *> pure ()))
    let _ ← optional do
      let types ← typeArguments g
      require (← looksAt "(")
      return types
    let _ ← optional (arguments g)
    opaqueNode s "new_expression"

def wordOperand (g : Grammar) : Reader Node := do
  let s ← start
  let some w ← peekWord | failure
  if w = "function" then function g false
  else if w = "class" then classFrom g s [] false
  else if w = "new" then newExpression g g.size
  else if w = "import" then
    keyword "import"
    if ← accept "." then
      let _ ← word
      opaqueNode s "meta_property"
    else opaqueNode s "import"
  else if selfWords.contains w then word *> opaqueNode s w
  else if w = "async" then function g false <|> name .identifier
  else
    require (!reservedWords.contains w)
    name .identifier

/-- Reads an operand without anything behind it. -/
def primary (g : Grammar) : Reader Node := do
  let s ← start
  match (← ahead) with
  | '(' :: _ => parentheses *> opaqueNode s "parenthesized_expression"
  | '[' :: _ => array g
  | '{' :: _ => object g
  | '"' :: _ | '\'' :: _ => string
  | '\x60' :: _ => template *> opaqueNode s "template_string"
  | '/' :: _ => regex *> opaqueNode s "regex"
  | '#' :: _ => symbol "#" *> word *> opaqueNode s "private_property_identifier"
  | '@' :: _ =>
    let applied ← decorators g
    classFrom g s applied false
  | _ => wordOperand g <|> (number *> opaqueNode s "number")

/-- Whether type arguments can end here, so that the angle brackets are no comparison. -/
def typeArgumentsEnd : Reader Bool := do
  let cs ← ahead
  match cs with
  | [] => return true
  | c :: _ =>
    if ← onNewLine then return true
    else if startsWord cs then
      let w ← peekWord
      return ("implements" :: (binaryWords ++ castWords)).contains (w.getD "")
    else return ")]\x7d\x7b,;:.?=*%&|^/".toList.contains c || (← looksAt "!=")

/-- Reads what is done to an operand: accesses, calls and assertions that it is there. -/
def operandRest (g : Grammar) (inside : Bool) (s : Cursor) (e : Node) : Nat → Reader Node
  | 0 => failure
  | limit + 1 => do
    let go (e : Node) : Reader Node := operandRest g inside s e limit
    let access : Reader Node := do
      let property ←
        (do
          let p ← start
          symbol "#"
          let _ ← word
          opaqueNode p "private_property_identifier") <|> name .propertyIdentifier
      node s .memberExpression [e.inRole .object, property.inRole .property]
    let subscript : Reader Node := do
      brackets
      opaqueNode s "subscript_expression"
    let call (types : List Node) : Reader Node := do
      let taken ← arguments g
      node s .callExpression (e.inRole .function :: types ++ [taken.inRole .arguments])
    let tagged (types : List Node) : Reader Node := do
      let t ← start
      template
      let text ← opaqueNode t "template_string"
      node s .callExpression (e.inRole .function :: types ++ [text.inRole .arguments])
    let generic : Reader Node := do
      require (!(← looksAt "<<") && !(← looksAt "<="))
      let types ← typeArguments g
      call [types] <|> tagged [types] <|> do
        require (← typeArgumentsEnd)
        opaqueNode s "instantiation_expression"
    match (← ahead) with
    | '.' :: rest =>
      if rest.head? = some '.' then return e
      else
        symbol "."
        go (← access)
    | '?' :: '.' :: d :: _ =>
      if d.isDigit then return e
      else
        symbol "?."
        go (← call [] <|> generic <|> subscript <|> access)
    | '(' :: _ => go (← call [])
    | '[' :: _ => go (← subscript)
    | '\x60' :: _ => go (← tagged [])
    | '<' :: _ =>
      match ← optional generic with
      | some e => go e
      | none => return e
    | '!' :: rest =>
      if rest.head? = some '=' || (!inside && (← onNewLine)) then return e
      else
        symbol "!"
        go (← opaqueNode s "non_null_expression")
    | _ => return e

def operand (g : Grammar) (inside : Bool) : Reader Node := do
  let s ← start
  let e ← primary g
  operandRest g inside s e g.size

def unary (g : Grammar) (inside : Bool) : Nat → Reader Node
  | 0 => failure
  | limit + 1 => do
    let s ← start
    let marked : Reader Node := do
      oneOf unaryMarks
      let _ ← unary g inside limit
      opaqueNode s "unary_expression"
    let worded : Reader Node := do
      wordOf unaryWords
      let _ ← unary g inside limit
      opaqueNode s "unary_expression"
    let asserted : Reader Node := do
      symbol "<"
      let _ ← g.type
      symbol ">"
      let _ ← unary g inside limit
      opaqueNode s "type_assertion"
    let plain : Reader Node := do
      let e ← operand g inside
      let stepped : Reader Node := do
        require (inside || !(← onNewLine))
        oneOf ["++", "--"]
        opaqueNode s "update_expression"
      stepped <|> pure e
    marked <|> worded <|> asserted <|> arrowFunction g inside <|> plain

def operation (g : Grammar) (inside : Bool) : Reader Unit := do
  let cast : Reader Unit := do
    require (inside || !(← onNewLine))
    wordOf castWords
    let _ ← g.type
  let joined : Reader Unit := do
    require (inside || !(← onNewLine) || !((← looksAt "++") || (← looksAt "--")))
    binaryOperator
    let _ ← unary g inside g.size
  cast <|> joined

/-- Whether an optional access is next; a question mark before a decimal fraction is none. -/
def looksAtOptionalAccess : Reader Bool := do
  match (← ahead) with
  | '?' :: '.' :: d :: _ => return !d.isDigit
  | _ => looksAt "?."

/-- Reads the two outcomes of a choice. If the first one, read as an arrow function, takes
the colon for its result type, it is read again as an operand. -/
def choice (g : Grammar) (inside : Bool) : Reader Unit := do
  require (!(← looksAtOptionalAccess))
  symbol "?"
  let outcomes (first : Reader Unit) : Reader Unit := do
    first
    symbol ":"
    let _ ← g.expression inside
  let whole : Reader Unit := do
    let _ ← g.expression true
  let operands : Reader Unit := do
    let _ ← operand g true
    let _ ← many g.size (operation g true)
  outcomes whole <|> outcomes operands

def assignment (g : Grammar) (inside : Bool) : Reader Unit := do
  assignmentOperator
  let _ ← g.expression inside

/-- Reads an expression up to a comma or to what it stands in. -/
def expression (g : Grammar) (inside : Bool) : Reader Node := do
  let s ← start
  let e ← arrowFunction g inside <|> unary g inside g.size
  let operations ← many g.size (operation g inside)
  let chosen ← optional (choice g inside)
  let assigned ← optional (assignment g inside)
  if operations.isEmpty && chosen.isNone && assigned.isNone then return e
  else opaqueNode s "binary_expression"

end Reader

end ModuleGraph.TypeScript
