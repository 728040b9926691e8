/-! The stack of the program. Reading a nested text, walking nested directories and making missing
ones take more of it with every level, and the work ends where none is left. How much that is
depends on what runs the program, so it is a parameter. -/

namespace ModuleGraph

structure Stack where
  /-- The longest way from the start of a walk to an entry that it can still look at. -/
  levels : Nat
  /-- The number of missing directories above a new one that can be made for it. -/
  parents : Nat
  tomlOverflows : List Char → Bool
  jsonOverflows : List Char → Bool
  /-- Reading the package file once more, for the name of the project, has another depth. -/
  nameOverflows : List Char → Bool

/-- The greatest number of brackets and braces that are open at once, besides `depth` others. -/
def nestingFrom (depth : Nat) : List Char → Nat
  | [] => depth
  | c :: cs =>
    if c = '[' || c = '{' then nestingFrom (depth + 1) cs
    else if c = ']' || c = '}' then max depth (nestingFrom (depth - 1) cs)
    else nestingFrom depth cs

/-- An estimate for a stack of about a thousand calls, of which a level of TOML takes two. Brackets
within a string are counted like any others. -/
def Stack.usual : Stack where
  levels := 980
  parents := 980
  tomlOverflows := fun cs => 490 < nestingFrom 0 cs
  jsonOverflows := fun cs => 980 < nestingFrom 0 cs
  nameOverflows := fun cs => 980 < nestingFrom 0 cs

end ModuleGraph
