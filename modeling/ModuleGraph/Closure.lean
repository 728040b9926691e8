/-! Everything a provider needs, directly or through the providers it needs. -/

namespace ModuleGraph

/-- Direct dependencies by name. The first entry of a name counts. -/
abbrev DependencyTable := List (String × List String)

namespace DependencyTable

def report (found : List String) : List String → List String
  | [] => found
  | d :: ds => report (if d ∈ found then found else found ++ [d]) ds

/-- Schedules the names not yet visited, each on top of those before it. -/
def schedule : List String → List String → List String → List String × List String
  | visited, stack, [] => (visited, stack)
  | visited, stack, d :: ds =>
    if d ∈ visited then schedule visited stack ds
    else schedule (d :: visited) (d :: stack) ds

/-- Depth-first traversal. An expanded name first reports its dependencies in order and
then schedules them, so that the first of them is expanded next. -/
def traverse (table : DependencyTable) :
    Nat → List String → List String → List String → List String
  | 0, _, _, found => found
  | _ + 1, _, [], found => found
  | limit + 1, visited, name :: stack, found =>
    match table.lookup name with
    | none => traverse table limit visited stack found
    | some dependencies =>
      let (visited, stack) := schedule visited stack dependencies.reverse
      traverse table limit visited stack (report found dependencies)

/-- Bounds the names that a traversal expands: the start and every listed dependency. -/
def reach (table : DependencyTable) : Nat :=
  (table.flatMap (·.2)).length + 1

/-- Every name reachable from `name`, direct dependencies first, each name once. Unknown
names are listed and not expanded; the start is listed if something leads back to it. -/
def closure (table : DependencyTable) (name : String) : List String :=
  table.traverse (table.reach + 1) [name] [name] []

end DependencyTable

end ModuleGraph
