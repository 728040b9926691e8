import ModuleGraph.Value

/-! Indented JSON in ASCII. Every other character is written as its UTF-16 units. -/

namespace ModuleGraph.Json

def unitEscape (n : Nat) : List Char :=
  ['\\', 'u'] ++ hexDigits 4 n

def escapedChar (c : Char) : List Char :=
  let n := c.toNat
  if c = '"' then ['\\', '"']
  else if c = '\\' then ['\\', '\\']
  else if c = '\n' then ['\\', 'n']
  else if c = '\r' then ['\\', 'r']
  else if c = '\t' then ['\\', 't']
  else if n = 0x08 then ['\\', 'b']
  else if n = 0x0C then ['\\', 'f']
  else if 0x20 ≤ n && n < 0x7F then [c]
  else if n < 0x10000 then unitEscape n
  else unitEscape (0xD800 + (n - 0x10000) / 0x400) ++ unitEscape (0xDC00 + (n - 0x10000) % 0x400)

def quotedString (s : String) : List Char :=
  '"' :: (s.toList.flatMap escapedChar ++ ['"'])

def newLine (indent : Nat) : List Char :=
  '\n' :: List.replicate indent ' '

mutual

/-- A value, with the lines after its first indented by at least `indent`. -/
def write (indent : Nat) : Value → List Char
  | .null => "null".toList
  | .bool true => "true".toList
  | .bool false => "false".toList
  | .int n => (toString n).toList
  | .decimal literal => literal.toList
  | .moment literal => literal.toList
  | .text s => quotedString s
  | .list [] => "[]".toList
  | .list (v :: vs) =>
    '[' :: (newLine (indent + 2) ++ write (indent + 2) v ++ writeItems (indent + 2) vs ++
      newLine indent ++ [']'])
  | .table [] => ['{', '}']
  | .table ((k, v) :: es) =>
    '{' :: (newLine (indent + 2) ++ quotedString k ++ [':', ' '] ++ write (indent + 2) v ++
      writeEntries (indent + 2) es ++ newLine indent ++ ['}'])

/-- The items after the first. -/
def writeItems (indent : Nat) : List Value → List Char
  | [] => []
  | v :: vs => ',' :: (newLine indent ++ write indent v ++ writeItems indent vs)

/-- The entries after the first. -/
def writeEntries (indent : Nat) : List (String × Value) → List Char
  | [] => []
  | (k, v) :: es =>
    ',' :: (newLine indent ++ quotedString k ++ [':', ' '] ++ write indent v ++
      writeEntries indent es)

end

def render (v : Value) : String :=
  String.ofList (write 0 v)

end ModuleGraph.Json
