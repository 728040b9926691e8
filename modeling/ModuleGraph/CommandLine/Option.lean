import ModuleGraph.Text.Digit
import ModuleGraph.Text.Quoting

/-! The options of the command line and how single arguments are understood. -/

namespace ModuleGraph.CommandLine

inductive Switch where
  | help
  | path
  | format
  | output
  | name
  | verbose
  deriving DecidableEq, Repr

namespace Switch

def all : List Switch := [help, path, format, output, name, verbose]

def labels : Switch → List String
  | help => ["-h", "--help"]
  | path => ["-p", "--path"]
  | format => ["-f", "--format"]
  | output => ["-o", "--output"]
  | name => ["--name"]
  | verbose => ["-v", "--verbose"]

def takesValue : Switch → Bool
  | help | verbose => false
  | path | format | output | name => true

def title (s : Switch) : String := "/".intercalate s.labels

def spellings : List (String × Switch) :=
  all.flatMap (fun s => s.labels.map (·, s))

def ofLabel? (label : String) : Option Switch := spellings.lookup label

def ofLetter? (c : Char) : Option Switch := ofLabel? (String.ofList ['-', c])

end Switch

inductive Refusal where
  | ambiguous (argument : String) (labels : List String)
  | valueExpected (s : Switch)
  | valueIgnored (s : Switch) (value : String)
  | unrecognized (arguments : List String)
  deriving DecidableEq, Repr

def Refusal.message : Refusal → String
  | ambiguous argument labels =>
    let candidates := ", ".intercalate labels
    s!"ambiguous option: {argument} could match {candidates}"
  | valueExpected s => s!"argument {s.title}: expected one argument"
  | valueIgnored s value => s!"argument {s.title}: ignored explicit argument {quoted value}"
  | unrecognized arguments =>
    let listed := " ".intercalate arguments
    s!"unrecognized arguments: {listed}"

/-- An argument by itself. A switch may carry text: behind an equals sign, or right behind
its letter. -/
inductive Token where
  | operand (text : String)
  | unknown (text : String)
  | long (s : Switch) (value : Option String)
  | short (s : Switch) (value : Option String) (hasEquals : Bool)
  deriving DecidableEq, Repr

def splitEquals (cs : List Char) : List Char × Option (List Char) :=
  (cs.takeWhile (· ≠ '='), (cs.dropWhile (· ≠ '=')).tail?)

/-- Whether a text is a minus and a number: digits, or a point and digits behind it with or
without digits before it. One line end may follow. -/
def isNegativeNumber (cs : List Char) : Bool :=
  match cs with
  | '-' :: body =>
    let body := if body.getLast? = some '\n' then body.dropLast else body
    match body.dropWhile isDecimalDigit with
    | [] => !body.isEmpty
    | '.' :: fraction => !fraction.isEmpty && fraction.all isDecimalDigit
    | _ => false
  | _ => false

def tokenOf (label : String) (s : Switch) (value : Option String) (hasEquals : Bool) : Token :=
  if label.startsWith "--" then .long s value else .short s value hasEquals

/-- The switches that an argument which is none of their spellings may mean: those with a
spelling that starts with it, or the one of its first letter. -/
def interpretations (cs : List Char) : List (String × Token) :=
  match cs with
  | '-' :: '-' :: _ =>
    let (front, value) := splitEquals cs
    (Switch.spellings.filter (fun e => front.isPrefixOf e.1.toList)).map
      (fun e => (e.1, .long e.2 (value.map String.ofList)))
  | '-' :: c :: rest =>
    match Switch.ofLetter? c with
    | some s => [(String.ofList ['-', c], .short s (some (String.ofList rest)) false)]
    | none => []
  | _ => []

/-- An argument that starts with a minus, looks like a number or holds a blank counts as an
operand unless it means a switch. -/
def unmatched (text : String) : Token :=
  if isNegativeNumber text.toList || text.toList.contains ' ' then .operand text
  else .unknown text

def assigned? (cs : List Char) : Option Token := do
  let (front, value) := splitEquals cs
  let value ← value
  let label := String.ofList front
  let s ← Switch.ofLabel? label
  return tokenOf label s (some (String.ofList value)) true

def understand (text : String) : Except Refusal Token :=
  match text.toList with
  | '-' :: c :: rest =>
    match Switch.ofLabel? text with
    | some s => .ok (tokenOf text s none false)
    | none =>
      let cs := '-' :: c :: rest
      match assigned? cs with
      | some t => .ok t
      | none =>
        match interpretations cs with
        | [] => .ok (unmatched text)
        | [(_, t)] => .ok t
        | several => .error (.ambiguous text (several.map (·.1)))
  | _ => .ok (.operand text)

end ModuleGraph.CommandLine
