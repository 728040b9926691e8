import ModuleGraph.TypeScript.Literal

/-! The grammar rules that refer to each other. A rule that needs one of them is given the
rules of the next lower nesting level, so each rule is an ordinary function. -/

namespace ModuleGraph.TypeScript

/-- The mutually dependent rules of one nesting level. `size` bounds the length of every
list in the source. An expression is told whether it stands inside brackets, where a line
break cannot end it; an operand is an expression without operators around it. -/
structure Grammar where
  size : Nat
  expression : Bool → Reader Node
  operand : Bool → Reader Node
  type : Reader Node
  statement : Reader Node

/-- The rules below the deepest level: nothing can be read. -/
def Grammar.exhausted (size : Nat) : Grammar :=
  ⟨size, fun _ => failure, fun _ => failure, failure, failure⟩

end ModuleGraph.TypeScript
