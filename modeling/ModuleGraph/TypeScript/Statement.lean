import ModuleGraph.TypeScript.Expression

/-! Statements and declarations. Imports, exports and classes keep their parts; of every
other statement only the extent is kept. -/

namespace ModuleGraph.TypeScript

namespace Reader

/-- Passes `with { … }` behind a module specifier. -/
def importAttributes : Reader Unit := do
  let _ ← optional do
    wordOf ["with", "assert"]
    braces

def fromClause : Reader Node := do
  keyword "from"
  let source ← string
  importAttributes
  return source.inRole .source

def importedName : Reader Node :=
  string <|> name .identifier

/-- Reads `name`, `name as alias`, or either behind the word `type`. -/
def importSpecifier : Reader Node := do
  let s ← start
  let bare : Reader (List Node) := do
    let imported ← importedName
    if ← acceptKeyword "as" then
      let renamed ← name .identifier
      return [imported.inRole .name, renamed.inRole .asName]
    else return [imported.inRole .name]
  let closed (p : Reader (List Node)) : Reader (List Node) := do
    let parts ← p
    require ((← looksAt ",") || (← looksAt "\x7d"))
    return parts
  let parts ← closed bare <|> closed (wordOf ["type", "typeof"] *> bare)
  node s .importSpecifier parts

def namedImports : Reader Node := do
  let s ← start
  symbol "\x7b"
  let specifiers ← listUntil "\x7d" importSpecifier s.rest.length
  node s .namedImports specifiers

def namespaceImport : Reader Node := do
  let s ← start
  symbol "*"
  keyword "as"
  let bound ← name .identifier
  node s .namespaceImport [bound]

/-- Reads what an import binds, up to the word `from`. -/
def importClause : Reader Node := do
  let s ← start
  let group : Reader Node := namespaceImport <|> namedImports
  let named : Reader (List Node) := do
    let bound ← name .identifier
    if ← accept "," then return [bound, ← group]
    else return [bound]
  let parts ← named <|> ((· :: []) <$> group)
  require (← looksAtWord "from")
  node s .importClause parts

def importStatement (g : Grammar) : Reader Node := do
  let s ← start
  keyword "import"
  let clause : Reader (List Node) := do
    let bound ← importClause <|> (wordOf ["type", "typeof"] *> importClause)
    return [bound, ← fromClause]
  let bare : Reader (List Node) := do
    let source ← string
    importAttributes
    return [source.inRole .source]
  let required : Reader (List Node) := do
    let _ ← optional do
      keyword "type"
      require ((← peekWord).isSome)
    let _ ← word
    symbol "="
    let _ ← g.expression false
    return []
  let parts ← clause <|> bare <|> required
  terminator
  node s .importStatement parts

def declarator (g : Grammar) : Reader Unit := do
  pattern
  let _ ← accept "!"
  let _ ← optional (typeMark g)
  if ← accept "=" then
    let _ ← g.expression false

def variableDeclaration (g : Grammar) : Reader Node := do
  let s ← start
  let _ ← optional (keyword "await" *> do require (← looksAtWord "using"))
  let w ← word
  require (["const", "let", "var", "using"].contains w)
  let cs ← ahead
  require (startsWord cs || "[\x7b".toList.contains (cs.headD ' '))
  require (w ≠ "using" || !(← onNewLine))
  let _ ← separated g.size "," (declarator g)
  terminator
  opaqueNode s "lexical_declaration"

def interface (g : Grammar) : Reader Node := do
  let s ← start
  keyword "interface"
  let _ ← word
  typeParameters g
  if ← acceptKeyword "extends" then
    let _ ← separated g.size "," g.type
  braces
  opaqueNode s "interface_declaration"

def typeAlias (g : Grammar) : Reader Node := do
  let s ← start
  keyword "type"
  let _ ← word
  typeParameters g
  symbol "="
  let _ ← g.type
  terminator
  opaqueNode s "type_alias_declaration"

def enumeration : Reader Node := do
  let s ← start
  let _ ← acceptKeyword "const"
  keyword "enum"
  let _ ← word
  braces
  opaqueNode s "enum_declaration"

/-- Reads a namespace, or a module that is declared under its specifier. -/
def namespaceBlock (g : Grammar) : Reader Node := do
  let s ← start
  let named : Reader Unit := do
    wordOf ["namespace", "module"]
    require (!(← onNewLine))
    (string *> pure ()) <|> qualifiedName g 0
  named <|> keyword "global"
  if ← looksAt "\x7b" then braces else terminator
  opaqueNode s "module"

def plainDeclaration (g : Grammar) : Reader Node :=
  function g true <|> enumeration <|> variableDeclaration g <|> interface g <|> typeAlias g <|>
    namespaceBlock g

def declaration (g : Grammar) (s : Cursor) (applied : List Node) : Reader Node :=
  classFrom g s applied true <|> do
    require applied.isEmpty
    plainDeclaration g

/-- Reads a declaration of something that is defined elsewhere. -/
def ambient (g : Grammar) : Reader Node := do
  let s ← start
  keyword "declare"
  require (!(← onNewLine))
  let inner ← start
  let _ ← declaration g inner []
  opaqueNode s "ambient_declaration"

def exported (g : Grammar) : Reader (List Node) := do
  let s ← start
  let declared : Reader (List Node) := do
    let applied ← decorators g
    let decl ← declaration g s applied <|> ambient g
    return [decl.inRole .declaration]
  let source : Reader (List Node) := do
    let found ← optional fromClause
    terminator
    return found.toList
  let everything : Reader (List Node) := do
    let _ ← acceptKeyword "type"
    symbol "*"
    let _ ← optional (keyword "as" *> importedName)
    source
  let listed : Reader (List Node) := do
    let _ ← acceptKeyword "type"
    braces
    source
  let whole : Reader (List Node) := do
    symbol "="
    let _ ← g.expression false
    terminator
    return []
  let global : Reader (List Node) := do
    keyword "as"
    keyword "namespace"
    let _ ← word
    terminator
    return []
  let aliased : Reader (List Node) := do
    let decl ← importStatement g
    return [decl.inRole .declaration]
  let value : Reader (List Node) := do
    let e ← g.expression false
    terminator
    return [e.inRole .value]
  if ← acceptKeyword "default" then
    let s ← start
    let class? : Reader (List Node) := do
      let applied ← decorators g
      let decl ← classFrom g s applied true
      return [decl.inRole .declaration]
    class? <|> (do return [(← interface g).inRole .declaration]) <|>
      (do return [(← function g true).inRole .declaration]) <|> value
  else everything <|> listed <|> whole <|> global <|> aliased <|> declared

def exportStatement (g : Grammar) (s : Cursor) (applied : List Node) : Reader Node := do
  keyword "export"
  let parts ← exported g
  node s .exportStatement (applied ++ parts)

def controlStatement (g : Grammar) : Reader Node := do
  let s ← start
  let w ← word
  match w with
  | "if" =>
    parentheses
    let _ ← g.statement
    if ← acceptKeyword "else" then
      let _ ← g.statement
  | "for" =>
    let _ ← acceptKeyword "await"
    parentheses
    let _ ← g.statement
  | "while" | "with" =>
    parentheses
    let _ ← g.statement
  | "do" =>
    let _ ← g.statement
    keyword "while"
    parentheses
    let _ ← accept ";"
  | "switch" =>
    parentheses
    braces
  | "try" =>
    braces
    if ← acceptKeyword "catch" then
      let _ ← optional parentheses
      braces
    if ← acceptKeyword "finally" then braces
  | "return" | "throw" =>
    let _ ← optional do
      require (!(← onNewLine))
      sequence g false
    terminator
  | "break" | "continue" =>
    let _ ← optional do
      require (!(← onNewLine))
      word
    terminator
  | "debugger" => terminator
  | _ => failure
  opaqueNode s "control_statement"

def labelled (g : Grammar) : Reader Node := do
  let s ← start
  let w ← word
  require (!reservedWords.contains w)
  symbol ":"
  let _ ← g.statement
  opaqueNode s "labeled_statement"

def expressionStatement (g : Grammar) : Reader Node := do
  let s ← start
  let _ ← sequence g false
  terminator
  opaqueNode s "expression_statement"

def statement (g : Grammar) : Reader Node := do
  let s ← start
  match (← ahead) with
  | '{' :: _ => block
  | ';' :: _ => symbol ";" *> opaqueNode s "empty_statement"
  | _ =>
    let applied ← decorators g
    let declared : Reader Node := exportStatement g s applied <|> declaration g s applied
    if applied.isEmpty then
      importStatement g <|> declared <|> ambient g <|> controlStatement g <|> labelled g <|>
        expressionStatement g
    else declared

def skipToken : Reader Unit :=
  (word *> pure ()) <|> number <|> (string *> pure ()) <|> template <|> braces <|> brackets <|>
    parentheses <|> anyCharacter

/-- Reads statements up to the end of the source. Tokens that start none are passed over. -/
def statements (g : Grammar) : Nat → Reader (List Node)
  | 0 => pure []
  | limit + 1 => do
    match ← optional (statement g) with
    | some stmt => return stmt :: (← statements g limit)
    | none =>
      match ← optional skipToken with
      | some () => statements g limit
      | none => return []

end Reader

/-- The rules for sources in which rules nest up to a depth. -/
def Grammar.nested (size : Nat) : Nat → Grammar
  | 0 => Grammar.exhausted size
  | depth + 1 =>
    let g := Grammar.nested size depth
    { size
      expression := Reader.expression g
      operand := Reader.operand g
      type := Reader.type g
      statement := Reader.statement g }

def skipInterpreter (c : Cursor) : Cursor :=
  match c.rest with
  | '#' :: '!' :: rest => c.advance ((rest.takeWhile (fun d => !isLineBreak d)).length + 2)
  | _ => c

/-- The syntax tree of a source that is well formed. Of a malformed one it may keep less than other
parsers do, so the analysis takes any parser. -/
def parse (source : String) : Node :=
  let c := skipInterpreter (Cursor.ofSource source)
  let size := c.rest.length + 1
  let found := (Reader.statements (Grammar.nested size (size + 1)) size c).map (·.1)
  { kind := .other "program"
    field := none
    named := true
    text := source
    children := found.getD [] }

end ModuleGraph.TypeScript
