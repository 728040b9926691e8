/-! Line ends. A text file may end its lines with a line feed, a carriage return, or both;
readers see line feeds only. -/

namespace ModuleGraph

def unifyNewlines : List Char → List Char
  | '\r' :: '\n' :: rest => '\n' :: unifyNewlines rest
  | '\r' :: rest => '\n' :: unifyNewlines rest
  | c :: rest => c :: unifyNewlines rest
  | [] => []

/-- Writes a carriage return that a line feed follows, and that line feed, as one line
feed. -/
def foldReturns : List Char → List Char
  | '\r' :: '\n' :: rest => '\n' :: foldReturns rest
  | c :: rest => c :: foldReturns rest
  | [] => []

end ModuleGraph
