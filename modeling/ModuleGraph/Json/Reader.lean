import ModuleGraph.KeyedList
import ModuleGraph.Number.Decimal
import ModuleGraph.Value

/-! Reading JSON text. A fault names its cause and where the text stops being JSON. -/

namespace ModuleGraph.Json

inductive Cause where
  | byteOrderMark
  | valueExpected
  | nameExpected
  | colonExpected
  | commaExpected
  | stringUnterminated
  | controlCharacter
  | badEscape
  | badUnitEscape
  | extraData
  | integerTooLong (digits : Nat)
  deriving DecidableEq, Repr

structure Fault where
  cause : Cause
  offset : Nat
  deriving DecidableEq, Repr

/-- The number of decimal digits that an integer may have. -/
def digitLimit : Nat := 4300

def Cause.message : Cause → String
  | byteOrderMark => "Unexpected UTF-8 BOM (decode using utf-8-sig)"
  | valueExpected => "Expecting value"
  | nameExpected => "Expecting property name enclosed in double quotes"
  | colonExpected => "Expecting ':' delimiter"
  | commaExpected => "Expecting ',' delimiter"
  | stringUnterminated => "Unterminated string starting at"
  | controlCharacter => "Invalid control character at"
  | badEscape => "Invalid \\escape"
  | badUnitEscape => "Invalid \\uXXXX escape"
  | extraData => "Extra data"
  | integerTooLong digits =>
    s!"Exceeds the limit ({digitLimit} digits) for integer string conversion: " ++
      s!"value has {digits} digits; " ++
      "use sys.set_int_max_str_digits() to increase the limit"

/-- The text of a fault: lines and columns count from one, characters from zero. -/
def Fault.message (f : Fault) (text : String) : String :=
  match f.cause with
  | .integerTooLong _ => f.cause.message
  | _ =>
    let before := text.toList.take f.offset
    let line := before.count '\n' + 1
    let column := (before.reverse.takeWhile (· ≠ '\n')).length + 1
    s!"{f.cause.message}: line {line} column {column} (char {f.offset})"

/-- A reading step fails with a cause and the number of characters from the offending one
to the end. -/
abbrev Step := Except (Cause × Nat)

def isBlank (c : Char) : Bool :=
  c = ' ' || c = '\t' || c = '\n' || c = '\r'

def skipBlanks (cs : List Char) : List Char :=
  cs.dropWhile isBlank

def hexValue? (c : Char) : Option Nat :=
  if '0' ≤ c && c ≤ '9' then some (c.toNat - '0'.toNat)
  else if 'a' ≤ c && c ≤ 'f' then some (c.toNat - 'a'.toNat + 10)
  else if 'A' ≤ c && c ≤ 'F' then some (c.toNat - 'A'.toNat + 10)
  else none

def unit? : List Char → Option (Nat × List Char)
  | a :: b :: c :: d :: rest =>
    if rest.isEmpty then none
    else
      match hexValue? a, hexValue? b, hexValue? c, hexValue? d with
      | some w, some x, some y, some z => some (((w * 16 + x) * 16 + y) * 16 + z, rest)
      | _, _, _, _ => none
  | _ => none

def isHighHalf (n : Nat) : Bool := 0xD800 ≤ n && n < 0xDC00

def isLowHalf (n : Nat) : Bool := 0xDC00 ≤ n && n < 0xE000

def escaped? : Char → Option Char
  | '"' => some '"'
  | '\\' => some '\\'
  | '/' => some '/'
  | 'b' => some '\x08'
  | 'f' => some '\x0c'
  | 'n' => some '\n'
  | 'r' => some '\r'
  | 't' => some '\t'
  | _ => none

/-- The character of a `\u` escape whose digits start at `cs`, and the rest. Two halves of a
pair make one character; half a pair by itself reads as the replacement character. -/
def readUnit (cs : List Char) : Step (Char × List Char) :=
  match unit? cs with
  | none => .error (.badUnitEscape, cs.length + 1)
  | some (n, rest) =>
    if isHighHalf n then
      match rest with
      | '\\' :: 'u' :: more =>
        if more.length < 5 then .ok ('\ufffd', rest)
        else
          match unit? more with
          | none => .error (.badUnitEscape, more.length + 1)
          | some (m, rest') =>
            if isLowHalf m then
              .ok (Char.ofNat (0x10000 + (n - 0xD800) * 0x400 + (m - 0xDC00)), rest')
            else .ok ('\ufffd', rest)
      | _ => .ok ('\ufffd', rest)
    else if isLowHalf n then .ok ('\ufffd', rest)
    else .ok (Char.ofNat n, rest)

/-- The contents of a string, from behind its opening quote. `start` counts the characters
from that quote to the end of the text. -/
def readString (start : Nat) : Nat → List Char → Step (List Char × List Char)
  | 0, _ => .error (.stringUnterminated, start)
  | _ + 1, [] => .error (.stringUnterminated, start)
  | limit + 1, c :: rest =>
    if c = '"' then .ok ([], rest)
    else if c = '\\' then
      match rest with
      | [] => .error (.stringUnterminated, start)
      | 'u' :: digits => do
        let (u, rest) ← readUnit digits
        let (cs, rest) ← readString start limit rest
        pure (u :: cs, rest)
      | e :: rest =>
        match escaped? e with
        | none => .error (.badEscape, rest.length + 2)
        | some u => do
          let (cs, rest) ← readString start limit rest
          pure (u :: cs, rest)
    else if c.toNat < 0x20 then .error (.controlCharacter, rest.length + 1)
    else do
      let (cs, rest) ← readString start limit rest
      pure (c :: cs, rest)

/-- The integer part of a number: zero, or digits that do not start with zero. -/
def integerPart? : List Char → Option (List Char × List Char)
  | [] => none
  | c :: rest =>
    if c = '0' then some ([c], rest)
    else if c.isDigit then some (c :: rest.takeWhile Char.isDigit, rest.dropWhile Char.isDigit)
    else none

def fractionPart : List Char → List Char × List Char
  | '.' :: d :: rest =>
    if d.isDigit then (d :: rest.takeWhile Char.isDigit, rest.dropWhile Char.isDigit)
    else ([], '.' :: d :: rest)
  | cs => ([], cs)

def exponentPart (cs : List Char) : Option Int × List Char :=
  match cs with
  | e :: rest =>
    if e = 'e' || e = 'E' then
      let (isNegative, body) :=
        match rest with
        | '-' :: more => (true, more)
        | '+' :: more => (false, more)
        | _ => (false, rest)
      match body.takeWhile Char.isDigit with
      | [] => (none, cs)
      | digits =>
        let n := Int.ofNat (Decimal.digitsValue digits)
        (some (if isNegative then -n else n), body.dropWhile Char.isDigit)
    else (none, cs)
  | [] => (none, [])

def readNumber (cs : List Char) : Step (Value × List Char) :=
  let (isNegative, body) :=
    match cs with
    | '-' :: rest => (true, rest)
    | _ => (false, cs)
  match integerPart? body with
  | none => .error (.valueExpected, cs.length)
  | some (whole, rest) =>
    let (fraction, rest) := fractionPart rest
    let (exponent, rest) := exponentPart rest
    if fraction.isEmpty && exponent.isNone then
      if digitLimit < whole.length then .error (.integerTooLong whole.length, cs.length)
      else
        let n := Int.ofNat (Decimal.digitsValue whole)
        .ok (.int (if isNegative then -n else n), rest)
    else .ok (.decimal (Decimal.ofParts isNegative whole fraction (exponent.getD 0)), rest)

def words : List (String × Value) :=
  [("null", .null), ("true", .bool true), ("false", .bool false), ("NaN", .decimal "NaN"),
    ("Infinity", .decimal "Infinity"), ("-Infinity", .decimal "-Infinity")]

def readWord? (cs : List Char) : Option (Value × List Char) :=
  (words.find? (fun w => w.1.toList.isPrefixOf cs)).map
    (fun w => (w.2, cs.drop w.1.length))

mutual

/-- A value that starts at the first character. `limit` bounds the nesting. -/
def readValue : Nat → List Char → Step (Value × List Char)
  | 0, cs => .error (.valueExpected, cs.length)
  | _ + 1, [] => .error (.valueExpected, 0)
  | limit + 1, c :: rest =>
    if c = '"' then do
      let (s, rest) ← readString (rest.length + 1) (rest.length + 1) rest
      pure (.text (String.ofList s), rest)
    else if c = '[' then
      match skipBlanks rest with
      | ']' :: rest => .ok (.list [], rest)
      | body => do
        let (items, rest) ← readItems limit body
        pure (.list items, rest)
    else if c = '{' then
      match skipBlanks rest with
      | '}' :: rest => .ok (.table [], rest)
      | body => do
        let (entries, rest) ← readEntries limit [] body
        pure (.table entries, rest)
    else
      match readWord? (c :: rest) with
      | some found => .ok found
      | none => readNumber (c :: rest)

def readItems : Nat → List Char → Step (List Value × List Char)
  | 0, cs => .error (.valueExpected, cs.length)
  | limit + 1, cs => do
    let (v, rest) ← readValue limit cs
    match skipBlanks rest with
    | ']' :: rest => pure ([v], rest)
    | ',' :: rest => do
      let (vs, rest) ← readItems limit (skipBlanks rest)
      pure (v :: vs, rest)
    | rest => .error (.commaExpected, rest.length)

def readEntries : Nat → List (String × Value) → List Char → Step (List (String × Value) × List Char)
  | 0, _, cs => .error (.nameExpected, cs.length)
  | limit + 1, entries, cs =>
    match cs with
    | '"' :: rest => do
      let (key, rest) ← readString (rest.length + 1) (rest.length + 1) rest
      match skipBlanks rest with
      | ':' :: rest => do
        let (v, rest) ← readValue limit (skipBlanks rest)
        let entries := upsert (String.ofList key) v entries
        match skipBlanks rest with
        | '}' :: rest => pure (entries, rest)
        | ',' :: rest => readEntries limit entries (skipBlanks rest)
        | rest => .error (.commaExpected, rest.length)
      | rest => .error (.colonExpected, rest.length)
    | _ => .error (.nameExpected, cs.length)

end

def parse (text : String) : Except Fault Value :=
  let cs := text.toList
  let fault (e : Cause × Nat) : Fault := ⟨e.1, cs.length - e.2⟩
  if cs.head? = some '\ufeff' then .error ⟨.byteOrderMark, 0⟩
  else
    match readValue (2 * cs.length + 2) (skipBlanks cs) with
    | .error e => .error (fault e)
    | .ok (v, rest) =>
      match skipBlanks rest with
      | [] => .ok v
      | rest => .error (fault (.extraData, rest.length))

end ModuleGraph.Json
