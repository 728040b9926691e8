/-! Names of files. A path is kept without empty parts and without parts that stay where
they are. -/

namespace ModuleGraph

/-- A path. `root` is how it starts: nothing for a path relative to the working directory,
otherwise one slash or two. -/
structure Path where
  root : String
  parts : List String
  deriving DecidableEq, Repr

/-- The pieces of a text between its slashes, empty ones included. -/
def slashed : List Char → List (List Char)
  | [] => [[]]
  | c :: cs =>
    if c = '/' then [] :: slashed cs
    else
      match slashed cs with
      | [] => [[c]]
      | piece :: pieces => (c :: piece) :: pieces

def pathPieces (s : String) : List String :=
  (slashed s.toList).map String.ofList

namespace Path

/-- Whether a piece of a path leads anywhere. -/
def isPart (piece : String) : Bool :=
  piece ≠ "" && piece ≠ "."

/-- How a path starts: exactly two slashes are kept, any other number counts as one. -/
def rootOf (s : String) : String :=
  match (s.toList.takeWhile (· = '/')).length with
  | 0 => ""
  | 2 => "//"
  | _ => "/"

def ofString (s : String) : Path :=
  ⟨rootOf s, (pathPieces s).filter isPart⟩

def isAbsolute (p : Path) : Bool := p.root ≠ ""

def ofPlace (place : List String) : Path := ⟨"/", place⟩

def text (p : Path) : String :=
  if p.root = "" && p.parts.isEmpty then "."
  else p.root ++ "/".intercalate p.parts

def name (p : Path) : String := p.parts.getLast?.getD ""

def parent (p : Path) : Path := { p with parts := p.parts.dropLast }

def child (p : Path) (name : String) : Path := { p with parts := p.parts ++ [name] }

def below (p : Path) (place : List String) : Path := { p with parts := p.parts ++ place }

/-- The path `q` seen from `p`. -/
def join (p q : Path) : Path :=
  if q.isAbsolute then q else { p with parts := p.parts ++ q.parts }

/-- A name up to its last point, unless nothing stands before or behind the point. -/
def stem (name : String) : String :=
  let behind := name.toList.reverse.takeWhile (· ≠ '.')
  match name.toList.reverse.dropWhile (· ≠ '.') with
  | '.' :: c :: before => if behind.isEmpty then name else String.ofList (c :: before).reverse
  | _ => name

/-- The path with another suffix in place of the one that its name has, if any. -/
def withSuffix (p : Path) (suffix : String) : Path :=
  { p with parts := p.parts.dropLast ++ [stem p.name ++ suffix] }

end Path

def nameEndsWith (suffix name : String) : Bool :=
  suffix.toList.isSuffixOf name.toList

def moduleSuffix : String := ".module.ts"

end ModuleGraph
