import ModuleGraph.Text.Quoting

/-! Why a text is not TOML, and where it stops being so. -/

namespace ModuleGraph.Toml

abbrev Key := List String

/-- A key in a message: its names in parentheses, with a comma behind a single one. -/
def keyText : Key → String
  | [name] => s!"({quoted name},)"
  | names =>
    let listed := ", ".intercalate (names.map quoted)
    s!"({listed})"

inductive Cause where
  | statementExpected
  | lineEndExpected
  | keyExpected
  | equalsExpected
  | valueExpected
  | tableEndExpected
  | tablesEndExpected
  | arrayUnclosed
  | inlineTableUnclosed
  | stringUnterminated
  | delimiterExpected (delimiter : String)
  | characterInvalid (c : Char)
  | characterIllegal (c : Char)
  | backslashUnescaped
  | hexadecimalInvalid
  | notScalar
  | momentInvalid
  | declaredTwice (key : Key)
  | overwritten
  | namespaceRedefined (key : Key)
  | namespaceFrozen (key : Key)
  | duplicateName (name : String)
  | integerTooLong
  deriving DecidableEq, Repr

def Cause.message : Cause → String
  | statementExpected => "Invalid statement"
  | lineEndExpected => "Expected newline or end of document after a statement"
  | keyExpected => "Invalid initial character for a key part"
  | equalsExpected => "Expected '=' after a key in a key/value pair"
  | valueExpected => "Invalid value"
  | tableEndExpected => "Expected ']' at the end of a table declaration"
  | tablesEndExpected => "Expected ']]' at the end of an array declaration"
  | arrayUnclosed => "Unclosed array"
  | inlineTableUnclosed => "Unclosed inline table"
  | stringUnterminated => "Unterminated string"
  | delimiterExpected delimiter => s!"Expected {quoted delimiter}"
  | characterInvalid c => s!"Found invalid character {quoted (String.singleton c)}"
  | characterIllegal c => s!"Illegal character {quoted (String.singleton c)}"
  | backslashUnescaped => "Unescaped '\\' in a string"
  | hexadecimalInvalid => "Invalid hex value"
  | notScalar => "Escaped character is not a Unicode scalar value"
  | momentInvalid => "Invalid date or datetime"
  | declaredTwice key => s!"Cannot declare {keyText key} twice"
  | overwritten => "Cannot overwrite a value"
  | namespaceRedefined key => s!"Cannot redefine namespace {keyText key}"
  | namespaceFrozen key => s!"Cannot mutate immutable namespace {keyText key}"
  | duplicateName name => s!"Duplicate inline table key {quoted name}"
  | integerTooLong => "Integer too long"

/-- A cause with the number of characters that precede the offending one. -/
structure Fault where
  cause : Cause
  offset : Nat
  deriving DecidableEq, Repr

def Fault.message (f : Fault) (text : List Char) : String :=
  if text.length ≤ f.offset then s!"{f.cause.message} (at end of document)"
  else
    let before := text.take f.offset
    let line := before.count '\n' + 1
    let column := (before.reverse.takeWhile (· ≠ '\n')).length + 1
    s!"{f.cause.message} (at line {line}, column {column})"

/-- A reading step fails with a cause and the number of characters from the offending one
to the end. -/
abbrev Step := Except (Cause × Nat)

def failAt {α : Type} (cs : List Char) (cause : Cause) : Step α :=
  .error (cause, cs.length)

end ModuleGraph.Toml
