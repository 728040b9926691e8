import ModuleGraph.Syntax.Node

/-! Places in a TypeScript source and the smallest steps between them: blanks, comments,
words and punctuation. -/

namespace ModuleGraph.TypeScript

/-- What is left to read, and the number of characters already read. -/
structure Cursor where
  rest : List Char
  offset : Nat

/-- A reader fails without a trace, so that another one may be tried in its place. -/
abbrev Reader := StateT Cursor Option

def isLineBreak (c : Char) : Bool :=
  c = '\n' || c = '\r' || c = '\u2028' || c = '\u2029'

/-- The blanks between tokens: white space, and marks without a width. -/
def isBlank (c : Char) : Bool :=
  let n := c.toNat
  n = 0x20 || (0x09 ≤ n && n ≤ 0x0D) || n = 0x85 || n = 0xA0 || n = 0x1680 ||
    (0x2000 ≤ n && n ≤ 0x200B) || n = 0x2028 || n = 0x2029 || n = 0x202F || n = 0x205F ||
    n = 0x2060 || n = 0x3000 || n = 0xFEFF

def wordBreaks : List Char :=
  ":;\x60\"'@#.,|^&<=>+-*/\\%?!~()[]\x7b\x7d".toList

def isWordPart (c : Char) : Bool :=
  0x20 ≤ c.toNat && !isBlank c && !wordBreaks.contains c

def isWordStart (c : Char) : Bool :=
  isWordPart c && !c.isDigit

namespace Cursor

def ofSource (source : String) : Cursor := ⟨source.toList, 0⟩

def advance (c : Cursor) (n : Nat) : Cursor := ⟨c.rest.drop n, c.offset + n⟩

def textTo (start stop : Cursor) : String :=
  String.ofList (start.rest.take (stop.offset - start.offset))

end Cursor

/-- What a scan between two tokens is inside of. -/
inductive Trivia where
  | blank
  | lineComment
  | blockComment

/-- Passes blanks and comments. Tells whether a line ended, and where the next token is. -/
def skipTrivia : Trivia → Bool → Nat → List Char → Bool × Cursor
  | _, broken, offset, [] => (broken, ⟨[], offset⟩)
  | .blank, broken, offset, '/' :: '/' :: rest => skipTrivia .lineComment broken (offset + 2) rest
  | .blank, broken, offset, '/' :: '*' :: rest => skipTrivia .blockComment broken (offset + 2) rest
  | .blank, broken, offset, c :: rest =>
    if isBlank c then skipTrivia .blank (broken || isLineBreak c) (offset + 1) rest
    else (broken, ⟨c :: rest, offset⟩)
  | .lineComment, broken, offset, c :: rest =>
    if isLineBreak c then skipTrivia .blank true (offset + 1) rest
    else skipTrivia .lineComment broken (offset + 1) rest
  | .blockComment, broken, offset, '*' :: '/' :: rest => skipTrivia .blank broken (offset + 2) rest
  | .blockComment, broken, offset, c :: rest =>
    skipTrivia .blockComment (broken || isLineBreak c) (offset + 1) rest

namespace Cursor

def nextToken (c : Cursor) : Cursor :=
  (skipTrivia .blank false c.offset c.rest).2

def lineEnds (c : Cursor) : Bool :=
  (skipTrivia .blank false c.offset c.rest).1

end Cursor

namespace Reader

/-- Passes blanks and comments and yields the place of the next token. -/
def start : Reader Cursor := fun c => some (c.nextToken, c.nextToken)

/-- The place behind the last token read. -/
def here : Reader Cursor := get

def onNewLine : Reader Bool := fun c => some (c.lineEnds, c)

/-- What is left from the next token on; nothing is read. -/
def ahead : Reader (List Char) := fun c => some (c.nextToken.rest, c)

def require (condition : Bool) : Reader Unit :=
  if condition then pure () else failure

def symbol (s : String) : Reader Unit := fun c =>
  let token := c.nextToken
  if s.toList.isPrefixOf token.rest then some ((), token.advance s.length) else none

def accept (s : String) : Reader Bool :=
  (symbol s *> pure true) <|> pure false

def looksAt (s : String) : Reader Bool := do
  return s.toList.isPrefixOf (← ahead)

def anyCharacter : Reader Unit := fun c =>
  let token := c.nextToken
  if token.rest.isEmpty then none else some ((), token.advance 1)

def canRead {α : Type} (p : Reader α) : Reader Bool := fun c => some ((p c).isSome, c)

def optional {α : Type} (p : Reader α) : Reader (Option α) :=
  (some <$> p) <|> pure none

/-- Reads `p` as often as possible, at most `limit` times. -/
def many {α : Type} (limit : Nat) (p : Reader α) : Reader (List α) :=
  match limit with
  | 0 => pure []
  | limit + 1 => do
    match ← optional p with
    | some x => return x :: (← many limit p)
    | none => return []

def separated {α : Type} (limit : Nat) (separator : String) (p : Reader α) :
    Reader (List α) := do
  let first ← p
  let rest ← many limit (symbol separator *> p)
  return first :: rest

/-- Reads `item`s separated by commas up to a closing mark. Places may be left empty. -/
def listUntil {α : Type} (close : String) (item : Reader α) : Nat → Reader (List α)
  | 0 => failure
  | limit + 1 => do
    if ← accept close then return []
    else if ← accept "," then listUntil close item limit
    else
      let x ← item
      if ← accept close then return [x]
      else
        symbol ","
        return x :: (← listUntil close item limit)

def node (start : Cursor) (kind : Kind) (children : List Node) : Reader Node := do
  let stop ← here
  return { kind, field := none, named := true, text := start.textTo stop, children }

/-- A node of a kind that the analysis does not tell apart, without inner structure. -/
def opaqueNode (start : Cursor) (label : String) : Reader Node :=
  node start (.other label) []

end Reader

/-- The characters of a word at the start of a text; a backslash joins it as the start of
an escape. -/
def wordLength : List Char → Nat
  | '\\' :: 'u' :: '{' :: rest => escapeLength rest + 3
  | '\\' :: 'u' :: rest => wordLength rest + 2
  | c :: rest => if isWordPart c then wordLength rest + 1 else 0
  | [] => 0
where
  escapeLength : List Char → Nat
    | '}' :: rest => wordLength rest + 1
    | _ :: rest => escapeLength rest + 1
    | [] => 0

def startsWord : List Char → Bool
  | '\\' :: 'u' :: _ => true
  | c :: _ => isWordStart c
  | [] => false

namespace Reader

def word : Reader String := fun c =>
  let token := c.nextToken
  if startsWord token.rest then
    let stop := token.advance (wordLength token.rest)
    some (token.textTo stop, stop)
  else none

def keyword (w : String) : Reader Unit := do
  require ((← word) = w)

def acceptKeyword (w : String) : Reader Bool :=
  (keyword w *> pure true) <|> pure false

def peekWord : Reader (Option String) := fun c => some ((word c).map (·.1), c)

def looksAtWord (w : String) : Reader Bool := do
  return (← peekWord) = some w

end Reader

end ModuleGraph.TypeScript
