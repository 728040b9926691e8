import ModuleGraph.FileTree.Basic
import ModuleGraph.FileTree.Path
import ModuleGraph.Text.Quoting

/-! Where paths lead. The tree of a disk says what there is, and its system may still refuse an
access, for want of permission or because the path is too long. `Disk.locate` follows a path as an
access to a file does, and `Disk.settle` spells a path without links as far as it can. -/

namespace ModuleGraph

/-- The numbers of the errors that only say that nothing is there. -/
def absenceNumbers : List Nat := [2, 9, 20, 40]

/-- The error of a system that refuses an access to something whether or not it is there. -/
structure Refusal where
  number : Nat
  description : String
  isNoAbsence : number ∉ absenceNumbers
  deriving DecidableEq, Repr

def Refusal.denied : Refusal := ⟨13, "Permission denied", by decide⟩

def Refusal.overlong : Refusal := ⟨36, "File name too long", by decide⟩

inductive Access where
  | look
  | lookAtEntry
  | list
  | read
  | write
  | make
  deriving DecidableEq, Repr

def Access.follows : Access → Bool
  | lookAtEntry | make => false
  | look | list | read | write => true

/-- A tree, the place that relative paths start from, and what the system refuses. -/
structure Disk where
  tree : FileTree
  here : List String
  refusal : Access → Path → Option Refusal := fun _ _ => none

inductive AccessFault where
  | missing
  | taken
  | notDirectory
  | isDirectory
  | nameTooLong
  | tooManyLinks
  | refused (r : Refusal)
  deriving DecidableEq, Repr

namespace AccessFault

def number : AccessFault → Nat
  | missing => 2
  | taken => 17
  | notDirectory => 20
  | isDirectory => 21
  | nameTooLong => 36
  | tooManyLinks => 40
  | refused r => r.number

def description : AccessFault → String
  | missing => "No such file or directory"
  | taken => "File exists"
  | notDirectory => "Not a directory"
  | isDirectory => "Is a directory"
  | nameTooLong => "File name too long"
  | tooManyLinks => "Too many levels of symbolic links"
  | refused r => r.description

end AccessFault

structure AccessError where
  fault : AccessFault
  path : Path
  deriving DecidableEq, Repr

def AccessError.message (e : AccessError) : String :=
  s!"[Errno {e.fault.number}] {e.fault.description}: {quoted e.path.text}"

def linkLimit : Nat := 40

def nameLimit : Nat := 255

/-- The number of bytes of a path with the one that ends it. -/
def pathLimit : Nat := 4096

/-- The refusals of a system that grants every access but those to overlong paths. -/
def refuseOverlong (_ : Access) (p : Path) : Option Refusal :=
  if pathLimit ≤ p.text.utf8ByteSize then some .overlong else none

/-- What a path leads to: a node, a free name in a directory, or nowhere because a slash
follows something that cannot be entered. -/
inductive Located where
  | node (place : List String) (node : FileTree)
  | free (directory : List String) (name : String)
  | slashed (fault : AccessFault)

/-- Where a link leads to from the directory that holds it, and the parts to go from there. -/
def linkStart (directory : List String) (target : String) : List String × List String :=
  (if Path.rootOf target = "" then directory else [], pathPieces target)

def stopped (fault : AccessFault) (rest : List String) : Except AccessFault Located :=
  if rest.all String.isEmpty then .ok (.slashed fault) else .error fault

/-- Goes from a place along the parts of a path. A link stands for its target; one that is
the last part does so only if `follow` holds. `again` goes on behind a link. -/
def goAlong (tree : FileTree) (follow : Bool)
    (again : List String → List String → Except AccessFault Located) :
    List String → List String → Except AccessFault Located
  | place, [] =>
    match tree.at? place with
    | some node => .ok (.node place node)
    | none => .error .missing
  | place, part :: rest =>
    if !Path.isPart part then goAlong tree follow again place rest
    else if part = ".." then goAlong tree follow again place.dropLast rest
    else if nameLimit < part.utf8ByteSize then .error .nameTooLong
    else
      match tree.at? (place ++ [part]) with
      | none =>
        if rest.isEmpty then
          match tree.at? place with
          | some (.directory _) => .ok (.free place part)
          | _ => .error .missing
        else stopped .missing rest
      | some (.file content) =>
        if rest.isEmpty then .ok (.node (place ++ [part]) (.file content))
        else stopped .notDirectory rest
      | some (.directory _) => goAlong tree follow again (place ++ [part]) rest
      | some (.link target) =>
        if rest.isEmpty && !follow then .ok (.node (place ++ [part]) (.link target))
        else
          let (start, parts) := linkStart place target
          again start (parts ++ rest)

def goWithin (tree : FileTree) (follow : Bool) :
    Nat → List String → List String → Except AccessFault Located
  | 0 => fun _ _ => .error .tooManyLinks
  | limit + 1 => goAlong tree follow (goWithin tree follow limit)

/-- How far a path has been spelled without links. If it runs into a link that is being
resolved, it stops there and keeps the rest as it is. -/
structure Settled where
  place : List String
  isResolved : Bool
  known : List (List String × Option (List String))

/-- Spells the parts of a path from a place on. `known` holds the links met so far, with
their targets once these are settled; `again` settles the target of a link. -/
def settleAlong (linkAt? : List String → Option String)
    (again : List (List String × Option (List String)) → List String → List String → Settled) :
    List (List String × Option (List String)) → List String → List String → Settled
  | known, place, [] => ⟨place, true, known⟩
  | known, place, part :: rest =>
    if !Path.isPart part then settleAlong linkAt? again known place rest
    else if part = ".." then settleAlong linkAt? again known place.dropLast rest
    else
      match linkAt? (place ++ [part]) with
      | some target =>
        match known.lookup (place ++ [part]) with
        | some (some resolved) => settleAlong linkAt? again known resolved rest
        | some none => ⟨place ++ part :: rest, false, known⟩
        | none =>
          let (start, parts) := linkStart place target
          let s := again ((place ++ [part], none) :: known) start parts
          if s.isResolved then
            settleAlong linkAt? again ((place ++ [part], some s.place) :: s.known) s.place rest
          else ⟨s.place ++ rest, false, s.known⟩
      | none => settleAlong linkAt? again known (place ++ [part]) rest

def settleWithin (linkAt? : List String → Option String) :
    Nat → List (List String × Option (List String)) → List String → List String → Settled
  | 0 => fun known place _ => ⟨place, false, known⟩
  | limit + 1 => settleAlong linkAt? (settleWithin linkAt? limit)

/-- Drops the parts that lead nowhere, and each step up with the part before it. -/
def normalizeParts (parts : List String) : List String :=
  parts.foldl
    (fun done part =>
      if !Path.isPart part then done
      else if part = ".." then done.dropLast
      else done ++ [part])
    []

namespace Disk

def start (d : Disk) (p : Path) : List String :=
  if p.isAbsolute then [] else d.here

def locate (d : Disk) (p : Path) : Except AccessFault Located :=
  goWithin d.tree true (linkLimit + 1) (d.start p) p.parts

def locateEntry (d : Disk) (p : Path) : Except AccessFault Located :=
  goWithin d.tree false (linkLimit + 1) (d.start p) p.parts

/-- What an access finds at a path if it is granted. -/
def reach (d : Disk) (a : Access) (p : Path) : Except AccessFault Located :=
  if a.follows then d.locate p else d.locateEntry p

def access (d : Disk) (a : Access) (p : Path) : Except AccessFault Located :=
  match d.refusal a p with
  | some r => .error (.refused r)
  | none => d.reach a p

def refuse (d : Disk) (a : Access) (p : Path) (r : Refusal) : Disk :=
  { d with refusal := fun b q => if b = a ∧ q = p then some r else d.refusal b q }

/-- The target of the link at a place, if there is one that the system lets be seen. -/
def linkAt? (d : Disk) (place : List String) : Option String :=
  match d.refusal .lookAtEntry (.ofPlace place), d.tree.at? place with
  | none, some (.link target) => some target
  | _, _ => none

/-- The absolute path without links that `p` stands for, whether or not it exists. No link
is resolved inside its own target, so the links of the tree bound the search. -/
def settle (d : Disk) (p : Path) : Path :=
  let s := settleWithin d.linkAt? (d.tree.linkCount + 1) [] (d.start p) p.parts
  .ofPlace (normalizeParts s.place)

/-- Like `settle`, and none if links lead round in a circle. -/
def resolve? (d : Disk) (p : Path) : Option Path :=
  let settled := d.settle p
  match d.access .look settled with
  | .error .tooManyLinks => none
  | _ => some settled

end Disk

end ModuleGraph
