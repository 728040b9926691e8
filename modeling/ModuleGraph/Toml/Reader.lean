import ModuleGraph.Toml.Quoted
import ModuleGraph.Toml.Scalar
import ModuleGraph.Toml.Tables

/-! Reading TOML documents, statement by statement. -/

namespace ModuleGraph.Toml

def skipComment (cs : List Char) : Step (List Char) :=
  match cs with
  | '#' :: rest => do
    let span := rest.takeWhile (· ≠ '\n')
    refuseIllegal isIllegal span rest
    pure (rest.drop span.length)
  | cs => .ok cs

/-- What follows blank characters, line ends and comments. -/
def skipFiller : Nat → List Char → Step (List Char)
  | 0, cs => .ok cs
  | limit + 1, cs =>
    match cs.dropWhile isBlankOrLineEnd with
    | '#' :: rest => do skipFiller limit (← skipComment ('#' :: rest))
    | rest => .ok rest

def skipAllFiller (cs : List Char) : Step (List Char) :=
  skipFiller (cs.length + 1) cs

def isBareChar (c : Char) : Bool :=
  c.isAlphanum || c = '-' || c = '_'

def isQuote (c : Char) : Bool := c = '"' || c = '\''

def readName : List Char → Step (String × List Char)
  | [] => failAt [] .keyExpected
  | c :: rest =>
    if isBareChar c then
      .ok (String.ofList ((c :: rest).takeWhile isBareChar), (c :: rest).dropWhile isBareChar)
    else if isQuote c then (fun p => (String.ofList p.1, p.2)) <$> readLine c rest
    else failAt (c :: rest) .keyExpected

def readNames : Nat → List Char → Step (Key × List Char)
  | 0, cs => failAt cs .keyExpected
  | limit + 1, cs => do
    let (name, rest) ← readName cs
    match skipBlanks rest with
    | '.' :: rest => do
      let (names, rest) ← readNames limit (skipBlanks rest)
      pure (name :: names, rest)
    | rest => pure ([name], rest)

def readKey (cs : List Char) : Step (Key × List Char) :=
  readNames (cs.length + 1) cs

def readKeyEquals (cs : List Char) : Step (Key × List Char) := do
  match ← readKey cs with
  | (key, '=' :: rest) => pure (key, skipBlanks rest)
  | (_, rest) => failAt rest .equalsExpected

/-- Lifts a rule on tables to a reading step that fails at the start of `rest`. -/
def checked {α : Type} (rest : List Char) : Except Cause α → Step α
  | .ok a => .ok a
  | .error cause => failAt rest cause

def truth? (cs : List Char) : Option (Value × List Char) :=
  if "true".toList.isPrefixOf cs then some (.bool true, cs.drop 4)
  else if "false".toList.isPrefixOf cs then some (.bool false, cs.drop 5)
  else none

mutual

/-- A value that starts at the first character. `limit` bounds the nesting. -/
def readValue : Nat → List Char → Step (Value × List Char)
  | 0, cs => failAt cs .valueExpected
  | _ + 1, [] => failAt [] .valueExpected
  | limit + 1, c :: rest =>
    if isQuote c then (fun p => (.text (String.ofList p.1), p.2)) <$> readString c rest
    else if c = '[' then do
      match ← skipAllFiller rest with
      | ']' :: rest => pure (.list [], rest)
      | rest => do
        let (items, rest) ← readItems limit rest
        pure (.list items, rest)
    else if c = '{' then
      match skipBlanks rest with
      | '}' :: rest => .ok (.table [], rest)
      | rest => do
        let (entries, rest) ← readEntries limit {} rest
        pure (.table entries, rest)
    else
      match truth? (c :: rest) with
      | some found => .ok found
      | none => readScalar (c :: rest)

/-- The items of an array up to its closing bracket, which may follow a comma. -/
def readItems : Nat → List Char → Step (List Value × List Char)
  | 0, cs => failAt cs .valueExpected
  | limit + 1, cs => do
    let (v, rest) ← readValue limit cs
    match ← skipAllFiller rest with
    | ']' :: rest => pure ([v], rest)
    | ',' :: rest =>
      match ← skipAllFiller rest with
      | ']' :: rest => pure ([v], rest)
      | rest => do
        let (vs, rest) ← readItems limit rest
        pure (v :: vs, rest)
    | rest => failAt rest .arrayUnclosed

def readEntries : Nat → InlineTable → List Char → Step (Entries × List Char)
  | 0, _, cs => failAt cs .valueExpected
  | limit + 1, table, cs => do
    let (key, rest) ← readKeyEquals cs
    let (v, rest) ← readValue limit rest
    let table ← checked rest (table.assign key v)
    match skipBlanks rest with
    | '}' :: rest => pure (table.entries, rest)
    | ',' :: rest => readEntries limit table (skipBlanks rest)
    | rest => failAt rest .inlineTableUnclosed

end

def readTableHeader (t : Tables) (cs : List Char) : Step (Tables × List Char) := do
  let (key, rest) ← readKey (skipBlanks cs)
  let t ← checked rest (t.openTable key)
  match rest with
  | ']' :: rest => pure (t, rest)
  | rest => failAt rest .tableEndExpected

/-- The declaration of one more table of a list, from behind its two brackets. -/
def readItemHeader (t : Tables) (cs : List Char) : Step (Tables × List Char) := do
  let (key, rest) ← readKey (skipBlanks cs)
  let t ← checked rest (t.openItem key)
  match rest with
  | ']' :: ']' :: rest => pure (t, rest)
  | rest => failAt rest .tablesEndExpected

def readEntry (t : Tables) (cs : List Char) : Step (Tables × List Char) := do
  let (key, rest) ← readKeyEquals cs
  let (v, rest) ← readValue (2 * rest.length + 2) rest
  let t ← checked rest (t.assign key v)
  pure (t, rest)

def readStatement (t : Tables) (cs : List Char) : Step (Tables × List Char) :=
  match cs with
  | [] => .ok (t, [])
  | c :: rest =>
    if isBareChar c || isQuote c then readEntry t (c :: rest)
    else if c = '[' then
      match rest with
      | '[' :: rest => readItemHeader t.settle rest
      | rest => readTableHeader t.settle rest
    else if c = '#' || c = '\n' then .ok (t, cs)
    else failAt cs .statementExpected

def readLines : Nat → Tables → List Char → Step Tables
  | 0, t, _ => .ok t
  | limit + 1, t, cs => do
    let (t, rest) ← readStatement t (skipBlanks cs)
    match ← skipComment (skipBlanks rest) with
    | [] => pure t
    | '\n' :: rest => readLines limit t rest
    | rest => failAt rest .lineEndExpected

/-- The table that a whole document denotes. Line ends are line feeds. -/
def parse (cs : List Char) : Except Fault Entries :=
  match readLines (cs.length + 1) {} cs with
  | .ok t => .ok t.entries
  | .error (cause, left) => .error ⟨cause, cs.length - left⟩

end ModuleGraph.Toml
