import ModuleGraph.Json.Reader
import ModuleGraph.Toml.Fault

/-! The strings of TOML: basic ones with escapes and literal ones without, on one line or
on several. -/

namespace ModuleGraph.Toml

def isBlank (c : Char) : Bool := c = ' ' || c = '\t'

def isBlankOrLineEnd (c : Char) : Bool := isBlank c || c = '\n'

def skipBlanks (cs : List Char) : List Char := cs.dropWhile isBlank

/-- Control characters other than tabs may not stand on a line. -/
def isIllegal (c : Char) : Bool :=
  (c.toNat < 0x20 || c.toNat = 0x7F) && c ≠ '\t'

def isIllegalIn (multiline : Bool) (c : Char) : Bool :=
  isIllegal c && !(multiline && c = '\n')

/-- What stands before the first occurrence of `delimiter`, and what follows it. -/
def cutAt? (delimiter : List Char) : List Char → Option (List Char × List Char)
  | [] => if delimiter.isEmpty then some ([], []) else none
  | c :: cs =>
    if delimiter.isPrefixOf (c :: cs) then some ([], (c :: cs).drop delimiter.length)
    else (cutAt? delimiter cs).map (fun p => (c :: p.1, p.2))

def refuseIllegal (illegal : Char → Bool) (span cs : List Char) : Step Unit :=
  match span.dropWhile (!illegal ·) with
  | [] => .ok ()
  | c :: bad => .error (.characterInvalid c, cs.length - (span.length - bad.length - 1))

def readLiteral (delimiter : String) (multiline : Bool) (cs : List Char) :
    Step (List Char × List Char) :=
  match cutAt? delimiter.toList cs with
  | none => .error (.delimiterExpected delimiter, 0)
  | some (span, rest) => do
    refuseIllegal (isIllegalIn multiline) span cs
    pure (span, rest)

def readCode (width : Nat) (cs : List Char) : Step (Char × List Char) :=
  let digits := (cs.take width).filterMap Json.hexValue?
  if digits.length ≠ width then failAt cs .hexadecimalInvalid
  else
    let n := digits.foldl (fun n d => n * 16 + d) 0
    let rest := cs.drop width
    if n.isValidChar then .ok (Char.ofNat n, rest) else failAt rest .notScalar

def escaped? : Char → Option Char
  | 'b' => some '\x08'
  | 't' => some '\t'
  | 'n' => some '\n'
  | 'f' => some '\x0c'
  | 'r' => some '\r'
  | '"' => some '"'
  | '\\' => some '\\'
  | _ => none

/-- A backslash before the end of a line, given what follows the backslash: the line end and
all blank characters around it are left out. -/
def skipLineEnd (cs : List Char) : Step (List Char) :=
  match skipBlanks cs with
  | [] => .ok []
  | '\n' :: rest => .ok (rest.dropWhile isBlankOrLineEnd)
  | rest => failAt rest .backslashUnescaped

def readEscape (multiline : Bool) : List Char → Step (List Char × List Char)
  | [] => failAt [] .backslashUnescaped
  | c :: rest =>
    if multiline && isBlankOrLineEnd c then
      (fun rest => ([], rest)) <$> skipLineEnd (c :: rest)
    else if c = 'u' then (fun p => ([p.1], p.2)) <$> readCode 4 rest
    else if c = 'U' then (fun p => ([p.1], p.2)) <$> readCode 8 rest
    else
      match escaped? c with
      | some e => .ok ([e], rest)
      | none => failAt rest .backslashUnescaped

/-- A string with escapes, from behind its opening delimiter. A quote ends it on one line,
three quotes on several. -/
def readBasic (multiline : Bool) : Nat → List Char → Step (List Char × List Char)
  | 0, cs => failAt cs .stringUnterminated
  | _ + 1, [] => failAt [] .stringUnterminated
  | limit + 1, c :: rest =>
    if c = '"' && !multiline then .ok ([], rest)
    else if c = '"' && ['"', '"'].isPrefixOf rest then .ok ([], rest.drop 2)
    else if c = '\\' then do
      let (e, rest) ← readEscape multiline rest
      let (cs, rest) ← readBasic multiline limit rest
      pure (e ++ cs, rest)
    else if c ≠ '"' && isIllegalIn multiline c then failAt (c :: rest) (.characterIllegal c)
    else do
      let (cs, rest) ← readBasic multiline limit rest
      pure (c :: cs, rest)

/-- Up to two more quotes behind the closing three belong to the string. -/
def extraQuotes (quote : Char) : List Char → List Char × List Char
  | a :: b :: rest =>
    if a = quote then if b = quote then ([a, b], rest) else ([a], b :: rest)
    else ([], a :: b :: rest)
  | [a] => if a = quote then ([a], []) else ([], [a])
  | [] => ([], [])

/-- A string on several lines, from behind its opening quotes. A line end that follows these
is left out. -/
def readMultiline (quote : Char) (cs : List Char) : Step (List Char × List Char) := do
  let body :=
    match cs with
    | '\n' :: rest => rest
    | cs => cs
  let (s, rest) ←
    if quote = '"' then readBasic true (body.length + 1) body
    else readLiteral "'''" true body
  let (extra, rest) := extraQuotes quote rest
  pure (s ++ extra, rest)

def readLine (quote : Char) (cs : List Char) : Step (List Char × List Char) :=
  if quote = '"' then readBasic false (cs.length + 1) cs else readLiteral "'" false cs

def readString (quote : Char) (cs : List Char) : Step (List Char × List Char) :=
  if [quote, quote].isPrefixOf cs then readMultiline quote (cs.drop 2) else readLine quote cs

end ModuleGraph.Toml
