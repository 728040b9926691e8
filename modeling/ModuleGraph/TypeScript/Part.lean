import ModuleGraph.TypeScript.Type

/-! Parts that expressions, classes and functions have in common. -/

namespace ModuleGraph.TypeScript

namespace Reader

/-- Passes a block of statements; nothing inside it is kept. -/
def block : Reader Node := do
  let s ← start
  braces
  opaqueNode s "statement_block"

def element (g : Grammar) : Reader Node := do
  let s ← start
  if ← accept "..." then
    let _ ← g.expression true
    opaqueNode s "spread_element"
  else g.expression true

def array (g : Grammar) : Reader Node := do
  let s ← start
  symbol "["
  let elements ← listUntil "]" (element g) g.size
  node s .array elements

def arguments (g : Grammar) : Reader Node := do
  let s ← start
  symbol "("
  let elements ← listUntil ")" (element g) g.size
  node s (.other "arguments") elements

def propertyName : Reader Node := do
  let s ← start
  match (← ahead) with
  | '"' :: _ | '\'' :: _ => string
  | '[' :: _ => brackets *> opaqueNode s "computed_property_name"
  | '#' :: _ => symbol "#" *> word *> opaqueNode s "private_property_identifier"
  | _ => name .propertyIdentifier <|> (number *> opaqueNode s "number")

def looksAtPropertyName : Reader Bool := do
  let cs ← ahead
  return startsWord cs || "\"'[#.0123456789".toList.contains (cs.headD ' ')

/-- Reads words that modify the member whose name follows them. -/
def modifiers (g : Grammar) (words : List String) : Reader (List String) :=
  many g.size do
    let w ← word
    require (words.contains w)
    require ((← looksAtPropertyName) || (← looksAt "*"))
    return w

/-- Reads what a function takes and yields: type parameters, parameters and a result. -/
def signature (g : Grammar) (parameters : Reader Node) : Reader Node := do
  typeParameters g
  let taken ← parameters
  let _ ← optional (typeMark g)
  return taken

def opaqueParameters : Reader Node := do
  let s ← start
  parentheses
  opaqueNode s "formal_parameters"

end Reader

end ModuleGraph.TypeScript
