import ModuleGraph.TypeScript.Cursor

/-! Literals and bracketed groups. A bracketed group is passed over token by token, so
brackets inside strings, templates, comments and regular expressions do not count. -/

namespace ModuleGraph.TypeScript

/-- The length of a string literal's remainder, closing quote included. -/
def stringLength? (quote : Char) : List Char → Option Nat
  | [] => none
  | '\\' :: '\r' :: '\n' :: rest => (stringLength? quote rest).map (· + 3)
  | '\\' :: _ :: rest => (stringLength? quote rest).map (· + 2)
  | c :: rest =>
    if c = quote then some 1
    else if c = '\n' || c = '\r' then none
    else (stringLength? quote rest).map (· + 1)

/-- The length of a regular expression's remainder up to its closing slash. A slash inside
a character class does not close it. -/
def patternLength? (inClass : Bool) : List Char → Option Nat
  | [] => none
  | '\\' :: c :: rest =>
    if isLineBreak c then none else (patternLength? inClass rest).map (· + 2)
  | c :: rest =>
    if isLineBreak c then none
    else if c = '/' && !inClass then some 1
    else
      let inClass := if c = '[' then true else if c = ']' then false else inClass
      (patternLength? inClass rest).map (· + 1)

def regexLength? : List Char → Option Nat
  | '/' :: rest =>
    match rest with
    | '/' :: _ | '*' :: _ => none
    | _ =>
      (patternLength? false rest).map (fun n =>
        1 + n + ((rest.drop n).takeWhile isWordPart).length)
  | _ => none

def isDigitPart (c : Char) : Bool := c.isDigit || c = '_'

def exponentLength : List Char → Nat
  | e :: s :: d :: rest =>
    if e = 'e' || e = 'E' then
      if s.isDigit then 1 + ((s :: d :: rest).takeWhile isDigitPart).length
      else if (s = '+' || s = '-') && d.isDigit then
        2 + ((d :: rest).takeWhile isDigitPart).length
      else 0
    else 0
  | [e, d] => if (e = 'e' || e = 'E') && d.isDigit then 2 else 0
  | _ => 0

/-- The length of a number that starts with a digit or with a point and a digit. -/
def numberLength? (cs : List Char) : Option Nat :=
  match cs with
  | '0' :: m :: rest =>
    if "xXoObB".toList.contains m then some (2 + (rest.takeWhile isWordPart).length)
    else some (decimalLength cs)
  | '.' :: d :: _ => if d.isDigit then some (decimalLength cs) else none
  | d :: _ => if d.isDigit then some (decimalLength cs) else none
  | [] => none
where
  decimalLength (cs : List Char) : Nat :=
    let whole := (cs.takeWhile isDigitPart).length
    match cs.drop whole with
    | 'n' :: _ => whole + 1
    | '.' :: rest =>
      let fraction := (rest.takeWhile isDigitPart).length
      whole + 1 + fraction + exponentLength (rest.drop fraction)
    | rest => whole + exponentLength rest

/-- What a scan over a bracketed group is inside of. A round bracket remembers whether an
expression may start behind it. -/
inductive Frame where
  | round (expressionAfter : Bool)
  | square
  | curly
  | template
  | substitution

/-- Words behind which an expression may start. -/
def operatorWords : List String :=
  ["return", "typeof", "instanceof", "in", "of", "new", "delete", "void", "throw", "case", "do",
    "else", "yield", "await", "default"]

/-- Words whose round brackets are followed by a statement. -/
def headWords : List String := ["if", "while", "for", "with"]

/-- Passes over a bracketed group. `operand` tells whether the last token ends an operand,
so that a slash divides, and `head` whether it is a word such as `if`. -/
def skipFrames : Nat → List Frame → Bool → Bool → Cursor → Option Cursor
  | 0, _, _, _, _ => none
  | _ + 1, [], _, _, c => some c
  | limit + 1, .template :: frames, _, _, c =>
    match c.rest with
    | [] => none
    | '\x60' :: _ => skipFrames limit frames true false (c.advance 1)
    | '\\' :: _ => skipFrames limit (.template :: frames) false false (c.advance 2)
    | '$' :: '{' :: _ =>
      skipFrames limit (.substitution :: .template :: frames) false false (c.advance 2)
    | _ => skipFrames limit (.template :: frames) false false (c.advance 1)
  | limit + 1, frame :: frames, operand, head, c =>
    let c := c.nextToken
    let go := skipFrames limit
    match c.rest with
    | [] => none
    | '(' :: _ => go (.round head :: frame :: frames) false false (c.advance 1)
    | '[' :: _ => go (.square :: frame :: frames) false false (c.advance 1)
    | '{' :: _ => go (.curly :: frame :: frames) false false (c.advance 1)
    | '\x60' :: _ => go (.template :: frame :: frames) false false (c.advance 1)
    | ')' :: _ =>
      match frame with
      | .round expressionAfter => go frames (!expressionAfter) false (c.advance 1)
      | _ => none
    | ']' :: _ =>
      match frame with
      | .square => go frames true false (c.advance 1)
      | _ => none
    | '}' :: _ =>
      match frame with
      | .curly | .substitution => go frames false false (c.advance 1)
      | _ => none
    | q :: rest =>
      if q = '"' || q = '\'' then
        match stringLength? q rest with
        | some n => go (frame :: frames) true false (c.advance (n + 1))
        | none => none
      else if q = '/' then
        match if operand then none else regexLength? c.rest with
        | some n => go (frame :: frames) true false (c.advance n)
        | none => go (frame :: frames) false false (c.advance 1)
      else if startsWord c.rest then
        let n := wordLength c.rest
        let w := c.textTo (c.advance n)
        go (frame :: frames) (!operatorWords.contains w) (headWords.contains w) (c.advance n)
      else
        match numberLength? c.rest with
        | some n => go (frame :: frames) true false (c.advance n)
        | none =>
          let two := c.rest.take 2
          if two = ['+', '+'] || two = ['-', '-'] then
            go (frame :: frames) operand false (c.advance 2)
          else if q = '!' && two ≠ ['!', '='] then
            go (frame :: frames) operand false (c.advance 1)
          else go (frame :: frames) false false (c.advance 1)

namespace Reader

/-- Passes over a group whose opening mark, of the given length, is next. -/
def group (frame : Frame) (length : Nat) : Reader Unit := fun c =>
  let token := c.nextToken
  match skipFrames (2 * token.rest.length + 2) [frame] false false (token.advance length) with
  | some stop => some ((), stop)
  | none => none

def parentheses : Reader Unit := do
  require (← looksAt "(")
  group (.round false) 1

def brackets : Reader Unit := do
  require (← looksAt "[")
  group .square 1

def braces : Reader Unit := do
  require (← looksAt "\x7b")
  group .curly 1

def template : Reader Unit := do
  require (← looksAt "\x60")
  group .template 1

def lexeme (length? : List Char → Option Nat) : Reader Unit := fun c =>
  let token := c.nextToken
  (length? token.rest).map (fun n => ((), token.advance n))

def number : Reader Unit := lexeme numberLength?

def regex : Reader Unit := lexeme regexLength?

def string : Reader Node := do
  let s ← start
  lexeme fun
    | '"' :: rest => (stringLength? '"' rest).map (· + 1)
    | '\'' :: rest => (stringLength? '\'' rest).map (· + 1)
    | _ => none
  node s .string []

def name (kind : Kind) : Reader Node := do
  let s ← start
  let _ ← word
  node s kind []

end Reader

end ModuleGraph.TypeScript
