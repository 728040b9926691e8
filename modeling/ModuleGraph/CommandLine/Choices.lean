import ModuleGraph.CommandLine.Option

/-! What a list of arguments asks for. -/

namespace ModuleGraph.CommandLine

/-- The values that have been chosen. Of several values for one switch the last counts. -/
structure Choices where
  path : Option String := none
  format : Option String := none
  output : Option String := none
  name : Option String := none
  isVerbose : Bool := false
  deriving DecidableEq, Repr

def Choices.set (c : Choices) (s : Switch) (value : String) : Choices :=
  match s with
  | .path => { c with path := some value }
  | .format => { c with format := some value }
  | .output => { c with output := some value }
  | .name => { c with name := some value }
  | .help | .verbose => c

/-- How an argument with a switch ends: complete, waiting for its value, or with letters
that are no switches. -/
inductive Ending where
  | complete
  | value (s : Switch) (text : String)
  | awaiting (s : Switch)
  | leftover (text : String)
  deriving DecidableEq, Repr

/-- The switches in one argument that take no value, and how the argument ends. -/
structure Cluster where
  plain : List Switch
  ending : Ending
  deriving DecidableEq, Repr

def Cluster.single (s : Switch) : Cluster :=
  if s.takesValue then ⟨[], .awaiting s⟩ else ⟨[s], .complete⟩

def Cluster.behind (s : Switch) (k : Cluster) : Cluster :=
  { k with plain := s :: k.plain }

/-- The switches of an argument that starts with the letter of `s` and goes on with the
letters given. Behind a switch that takes a value the letters are that value. -/
def clusterOf (s : Switch) (hasEquals : Bool) (letters : List Char) : Except Refusal Cluster :=
  if s.takesValue then .ok ⟨[], .value s (String.ofList letters)⟩
  else
    match letters with
    | [] => .error (.valueIgnored s "")
    | c :: rest =>
      if hasEquals || c = '-' then .error (.valueIgnored s (String.ofList (c :: rest)))
      else
        match Switch.ofLetter? c, rest with
        | none, _ => .ok ⟨[s], .leftover (String.ofList ('-' :: c :: rest))⟩
        | some t, [] => .ok (.behind s (.single t))
        | some t, '=' :: more => .behind s <$> clusterOf t true more
        | some t, d :: more => .behind s <$> clusterOf t false (d :: more)

def Token.cluster? : Token → Option (Except Refusal Cluster)
  | .operand _ | .unknown _ => none
  | .long s none | .short s none _ => some (.ok (.single s))
  | .long s (some value) =>
    some (if s.takesValue then .ok ⟨[], .value s value⟩ else .error (.valueIgnored s value))
  | .short s (some value) hasEquals => some (clusterOf s hasEquals value.toList)

/-- What arguments come to: a call for help, or choices and the arguments left over. -/
inductive Meaning where
  | help
  | choices (c : Choices) (leftover : List String)
  deriving DecidableEq, Repr

def Choices.addPlain (c : Choices) (plain : List Switch) : Option Choices :=
  if plain.contains .help then none
  else some (if plain.contains .verbose then { c with isVerbose := true } else c)

def interpret : Choices → List String → List Token → Except Refusal Meaning
  | c, leftover, [] => .ok (.choices c leftover)
  | c, leftover, .operand text :: rest => interpret c (leftover ++ [text]) rest
  | c, leftover, .unknown text :: rest => interpret c (leftover ++ [text]) rest
  | c, leftover, token :: rest =>
    match token.cluster? with
    | none => interpret c leftover rest
    | some (.error refusal) => .error refusal
    | some (.ok ⟨plain, ending⟩) =>
      match ending, rest with
      | .awaiting s, .operand text :: rest =>
        match c.addPlain plain with
        | none => .ok .help
        | some c => interpret (c.set s text) leftover rest
      | .awaiting s, _ => .error (.valueExpected s)
      | .value s text, rest =>
        match c.addPlain plain with
        | none => .ok .help
        | some c => interpret (c.set s text) leftover rest
      | .leftover text, rest =>
        match c.addPlain plain with
        | none => .ok .help
        | some c => interpret c (leftover ++ [text]) rest
      | .complete, rest =>
        match c.addPlain plain with
        | none => .ok .help
        | some c => interpret c leftover rest

def splitOperands (arguments : List String) : List String × List String :=
  (arguments.takeWhile (· ≠ "--"), arguments.dropWhile (· ≠ "--"))

/-- Understands arguments. From a double dash on they are left over, and nothing may be. -/
def read (arguments : List String) : Except Refusal (Option Choices) := do
  let (front, operands) := splitOperands arguments
  let tokens ← front.mapM understand
  match ← interpret {} [] tokens with
  | .help => return none
  | .choices c leftover =>
    if (leftover ++ operands).isEmpty then return some c
    else throw (.unrecognized (leftover ++ operands))

end ModuleGraph.CommandLine
