import ModuleGraph.Failure

/-! Walking a directory depth first, entries in the order of their names. Directories are
entered unless their name is excluded; links to directories are not. Every entry is looked up and
every directory that is entered is listed, and the walk ends early where that fails or where the
directories are nested too deeply. -/

namespace ModuleGraph

def byName {α : Type} (entries : List (String × α)) : List (String × α) :=
  entries.mergeSort (fun a b => decide (a.1 ≤ b.1))

namespace FileTree

mutual

/-- The places that a walk comes to at a directory entry and below it, seen from the directory
that holds the entry. -/
def walkEntry (excluded : String → Bool) (name : String) : FileTree → List (List String)
  | .directory entries =>
    [name] ::
      if excluded name then []
      else (byName (walkEntries excluded entries)).flatMap (fun e => e.2.map (name :: ·))
  | _ => [[name]]

def walkEntries (excluded : String → Bool) :
    List (String × FileTree) → List (String × List (List String))
  | [] => []
  | (name, t) :: rest => (name, walkEntry excluded name t) :: walkEntries excluded rest

end

def walk (excluded : String → Bool) (entries : List (String × FileTree)) : List (List String) :=
  (byName (walkEntries excluded entries)).flatMap (·.2)

end FileTree

inductive WalkEnd where
  /-- An entry cannot be looked up. -/
  | unseen (e : AccessError)
  /-- A directory cannot be listed. -/
  | unlisted (e : AccessError)
  | tooDeep
  deriving DecidableEq

def WalkEnd.failure : WalkEnd → Failure
  | unseen e | unlisted e => .access e
  | tooDeep => .stackExhausted

def WalkEnd.notices : WalkEnd → List Notice
  | unlisted e => [.scanFailed e.path.text]
  | _ => []

/-- The files that a walk finds, in order, and what ends it early, if anything does. -/
structure Walk where
  files : List Path
  failure : Option WalkEnd
  deriving DecidableEq

/-- Goes to places below `root` one after the other, and takes those that `visit` calls files,
until it fails. -/
def Walk.along (root : Path) (visit : List String → Except WalkEnd Bool) :
    List (List String) → Walk
  | [] => ⟨[], none⟩
  | place :: rest =>
    match visit place with
    | .error e => ⟨[], some e⟩
    | .ok isFile =>
      let walk := Walk.along root visit rest
      if isFile then { walk with files := root.below place :: walk.files } else walk

namespace Disk

/-- Whether a path leads to a directory without being a link to it. -/
def isRealDirectory (d : Disk) (p : Path) : Except AccessError Bool :=
  match d.isDirectory p with
  | .ok true => (!·) <$> d.isLink p
  | found => found

section Walk

variable (d : Disk) (levels : Nat) (excluded accepted : String → Bool) (root : Path)

/-- Whether the walk takes an entry for a file, unless it ends there. -/
def visit (place : List String) : Except WalkEnd Bool :=
  let entry := root.below place
  if levels < place.length then .error .tooDeep
  else
    match d.isRealDirectory entry with
    | .error e => .error (.unseen e)
    | .ok false => .ok (accepted entry.name)
    | .ok true =>
      if excluded entry.name then .ok false
      else
        match d.readDirectory entry with
        | .error e => .error (.unlisted e)
        | .ok _ => .ok false

def walk : Walk :=
  match d.readDirectory root with
  | .error e => ⟨[], some (.unlisted e)⟩
  | .ok entries =>
    .along root (d.visit levels excluded accepted root) (FileTree.walk excluded entries)

end Walk

end Disk

end ModuleGraph
