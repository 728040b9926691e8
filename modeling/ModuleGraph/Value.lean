import ModuleGraph.Text.Quoting

/-! Values of data files, whichever format they are written in. -/

namespace ModuleGraph

/-- A value of a data file. A decimal number has its shortest spelling, and a point in time
the one it was read with; the entries of a table keep their order. -/
inductive Value where
  | null
  | bool (b : Bool)
  | int (n : Int)
  | decimal (literal : String)
  | moment (literal : String)
  | text (s : String)
  | list (items : List Value)
  | table (entries : List (String × Value))
  deriving Inhabited, Repr

namespace Value

def get? : Value → String → Option Value
  | .table entries, key => entries.lookup key
  | _, _ => none

def isZeroLiteral (literal : String) : Bool :=
  (literal.toList.takeWhile (fun c => c ≠ 'e' && c ≠ 'E')).all
    (fun c => !c.isAlphanum || c = '0')

/-- Whether a value counts as present: neither null, false, zero nor empty. -/
def isTruthy : Value → Bool
  | .null => false
  | .bool b => b
  | .int n => n ≠ 0
  | .decimal literal => !isZeroLiteral literal
  | .moment _ => true
  | .text s => !s.isEmpty
  | .list items => !items.isEmpty
  | .table entries => !entries.isEmpty

/-- The items that a value holds: a text holds its characters, a table its keys. -/
def items? : Value → Option (List Value)
  | .list vs => some vs
  | .text s => some (s.toList.map (fun c => .text (String.singleton c)))
  | .table entries => some (entries.map (fun e => .text e.1))
  | _ => none

/-- Whether a value may be a member of a set. -/
def isAtomic : Value → Bool
  | .list _ => false
  | .table _ => false
  | _ => true

mutual

def shown : Value → String
  | .null => "None"
  | .bool true => "True"
  | .bool false => "False"
  | .int n => toString n
  | .decimal "NaN" => "nan"
  | .decimal "Infinity" => "inf"
  | .decimal "-Infinity" => "-inf"
  | .decimal literal => literal
  | .moment literal => literal
  | .text s => quoted s
  | .list items => "[" ++ ", ".intercalate (shownItems items) ++ "]"
  | .table entries => "\x7b" ++ ", ".intercalate (shownEntries entries) ++ "\x7d"

def shownItems : List Value → List String
  | [] => []
  | v :: vs => v.shown :: shownItems vs

def shownEntries : List (String × Value) → List String
  | [] => []
  | (k, v) :: es => (quoted k ++ ": " ++ v.shown) :: shownEntries es

end

/-- A value as a message of its own: a text without quotes. -/
def message : Value → String
  | .text s => s
  | v => v.shown

end Value

end ModuleGraph
