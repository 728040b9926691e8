import ModuleGraph.KeyedList

/-! Trees of files, symbolic links and directories. A place is the list of names that lead
to a node from the root of the tree. -/

namespace ModuleGraph

inductive FileTree where
  | file (content : List UInt8)
  | link (target : String)
  | directory (entries : List (String × FileTree))
  deriving Inhabited, Repr

namespace FileTree

def empty : FileTree := .directory []

def entry? : FileTree → String → Option FileTree
  | .directory entries, name => entries.lookup name
  | _, _ => none

/-- The node at a place. Links are not followed. -/
def at? : FileTree → List String → Option FileTree
  | t, [] => some t
  | t, name :: rest => (t.entry? name).bind (·.at? rest)

/-- Puts a node at a place and makes the directories that lead there. What lies beyond a
file or a link stays as it is. -/
def put (t : FileTree) (place : List String) (node : FileTree) : FileTree :=
  match place, t with
  | [], _ => node
  | name :: rest, .directory entries =>
    .directory (upsert name (((entries.lookup name).getD empty).put rest node) entries)
  | _ :: _, t => t

/-- Makes the directories that lead to a place, and the place itself a directory unless
something is there. -/
def putDirectory (t : FileTree) (place : List String) : FileTree :=
  if (t.at? place).isSome then t else t.put place empty

mutual

def linkCount : FileTree → Nat
  | .file _ => 0
  | .link _ => 1
  | .directory entries => linkCountIn entries

def linkCountIn : List (String × FileTree) → Nat
  | [] => 0
  | (_, t) :: rest => t.linkCount + linkCountIn rest

end

mutual

def files : FileTree → List (List String × List UInt8)
  | .file content => [([], content)]
  | .link _ => []
  | .directory entries => filesIn entries

def filesIn : List (String × FileTree) → List (List String × List UInt8)
  | [] => []
  | (name, t) :: rest => t.files.map (fun f => (name :: f.1, f.2)) ++ filesIn rest

end

end FileTree

end ModuleGraph
