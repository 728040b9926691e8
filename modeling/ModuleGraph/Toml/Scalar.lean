import ModuleGraph.Json.Reader
import ModuleGraph.Toml.Fault

/-! The numbers, dates and times of TOML. -/

namespace ModuleGraph.Toml

def twoDigits? (a b : Char) : Option Nat :=
  if a.isDigit && b.isDigit then some (Decimal.digitsValue [a, b]) else none

def pair? (low high : Nat) : List Char → Option (Nat × List Char)
  | a :: b :: rest => do
    let n ← twoDigits? a b
    if low ≤ n ∧ n ≤ high then some (n, rest) else none
  | _ => none

def dropChar? (c : Char) : List Char → Option (List Char)
  | d :: rest => if d = c then some rest else none
  | [] => none

def isLeapYear (year : Nat) : Bool :=
  year % 4 = 0 && (year % 100 ≠ 0 || year % 400 = 0)

def monthLength (year month : Nat) : Nat :=
  match month with
  | 2 => if isLeapYear year then 29 else 28
  | 4 | 6 | 9 | 11 => 30
  | _ => 31

def isDate (year month day : Nat) : Bool :=
  1 ≤ year && day ≤ monthLength year month

/-- A date as it is spelled, which need not exist, and what follows it. -/
def date? (cs : List Char) : Option ((Nat × Nat × Nat) × List Char) := do
  let (century, rest) ← pair? 0 99 cs
  let (years, rest) ← pair? 0 99 rest
  let rest ← dropChar? '-' rest
  let (month, rest) ← pair? 1 12 rest
  let rest ← dropChar? '-' rest
  let (day, rest) ← pair? 1 31 rest
  return ((century * 100 + years, month, day), rest)

def skipFraction : List Char → List Char
  | '.' :: c :: rest => if c.isDigit then rest.dropWhile Char.isDigit else '.' :: c :: rest
  | cs => cs

def afterTime? (cs : List Char) : Option (List Char) := do
  let (_, rest) ← pair? 0 23 cs
  let rest ← dropChar? ':' rest
  let (_, rest) ← pair? 0 59 rest
  let rest ← dropChar? ':' rest
  let (_, rest) ← pair? 0 59 rest
  return skipFraction rest

def afterOffset? (cs : List Char) : Option (List Char) :=
  match cs with
  | c :: rest =>
    if c = 'Z' || c = 'z' then some rest
    else if c = '+' || c = '-' then do
      let (_, rest) ← pair? 0 23 rest
      let rest ← dropChar? ':' rest
      let (_, rest) ← pair? 0 59 rest
      return rest
    else none
  | [] => none

/-- What follows a date: a time of day and its offset, both of which may be absent. -/
def afterDate (cs : List Char) : List Char :=
  match cs with
  | c :: rest =>
    if c = 'T' || c = 't' || c = ' ' then
      match afterTime? rest with
      | some rest => (afterOffset? rest).getD rest
      | none => cs
    else cs
  | [] => []

/-- The text from the start of `cs` up to `rest`. -/
def spelling (cs rest : List Char) : String :=
  String.ofList (cs.take (cs.length - rest.length))

def moment? (cs : List Char) : Option (Step (Value × List Char)) :=
  match date? cs with
  | some ((year, month, day), rest) =>
    let rest := afterDate rest
    if isDate year month day then some (.ok (.moment (spelling cs rest), rest))
    else some (failAt cs .momentInvalid)
  | none => (afterTime? cs).map (fun rest => .ok (.moment (spelling cs rest), rest))

/-- Digits, each of which may follow an underscore, at the start of a text. -/
def moreDigits (isDigit : Char → Bool) : List Char → List Char × List Char
  | [] => ([], [])
  | '_' :: [] => ([], ['_'])
  | '_' :: c :: rest =>
    if isDigit c then
      let (digits, rest) := moreDigits isDigit rest
      (c :: digits, rest)
    else ([], '_' :: c :: rest)
  | c :: rest =>
    if isDigit c then
      let (digits, rest) := moreDigits isDigit rest
      (c :: digits, rest)
    else ([], c :: rest)

/-- At least one digit, with single underscores between digits left out. -/
def digits? (isDigit : Char → Bool) : List Char → Option (List Char × List Char)
  | c :: rest =>
    if isDigit c then
      let (digits, rest) := moreDigits isDigit rest
      some (c :: digits, rest)
    else none
  | [] => none

def base? : Char → Option Nat
  | 'x' => some 16
  | 'o' => some 8
  | 'b' => some 2
  | _ => none

def isDigitOf (base : Nat) (c : Char) : Bool :=
  match Json.hexValue? c with
  | some n => n < base
  | none => false

def basedInteger? : List Char → Option (Value × List Char)
  | '0' :: c :: rest => do
    let base ← base? c
    let (digits, rest) ← digits? (isDigitOf base) rest
    let n := (digits.filterMap Json.hexValue?).foldl (fun n d => n * base + d) 0
    return (.int (Int.ofNat n), rest)
  | _ => none

/-- The digits before the point: zero, or digits that do not start with zero. -/
def wholeDigits? : List Char → Option (List Char × List Char)
  | '0' :: rest => some (['0'], rest)
  | cs => digits? Char.isDigit cs

def fractionDigits (cs : List Char) : List Char × List Char :=
  match cs with
  | '.' :: rest => (digits? Char.isDigit rest).getD ([], cs)
  | _ => ([], cs)

/-- Takes a sign off the start of a text and tells whether it is a minus. -/
def signed : List Char → Bool × List Char
  | '-' :: rest => (true, rest)
  | '+' :: rest => (false, rest)
  | cs => (false, cs)

def exponent (cs : List Char) : Option Int × List Char :=
  match cs with
  | e :: rest =>
    if e = 'e' || e = 'E' then
      let (isNegative, body) := signed rest
      match digits? Char.isDigit body with
      | some (digits, rest) =>
        let n := Int.ofNat (Decimal.digitsValue digits)
        (some (if isNegative then -n else n), rest)
      | none => (none, cs)
    else (none, cs)
  | [] => (none, [])

/-- A decimal number, whole unless it has a fraction or an exponent. -/
def decimal? (cs : List Char) : Option (Step (Value × List Char)) := do
  let (isNegative, body) := signed cs
  let (whole, rest) ← wholeDigits? body
  let (fraction, rest) := fractionDigits rest
  let (power, rest) := exponent rest
  if fraction.isEmpty && power.isNone then
    if Json.digitLimit < whole.length then return failAt cs .integerTooLong
    else
      let n := Int.ofNat (Decimal.digitsValue whole)
      return .ok (.int (if isNegative then -n else n), rest)
  else return .ok (.decimal (Decimal.ofParts isNegative whole fraction (power.getD 0)), rest)

def numberWords : List (String × String) :=
  [("inf", "Infinity"), ("+inf", "Infinity"), ("-inf", "-Infinity"), ("nan", "NaN"),
    ("+nan", "NaN"), ("-nan", "NaN")]

def numberWord? (cs : List Char) : Option (Value × List Char) :=
  (numberWords.find? (fun w => w.1.toList.isPrefixOf cs)).map
    (fun w => (.decimal w.2, cs.drop w.1.length))

def readScalar (cs : List Char) : Step (Value × List Char) :=
  match moment? cs with
  | some result => result
  | none =>
    match basedInteger? cs with
    | some found => .ok found
    | none =>
      match decimal? cs with
      | some result => result
      | none =>
        match numberWord? cs with
        | some found => .ok found
        | none => failAt cs .valueExpected

end ModuleGraph.Toml
