import ModuleGraph.CommandLine.Execution
import ModuleGraph.TypeScript.Statement

/-! The program. It takes in the part of the disk that its arguments are about, with what the
system refuses there, carries them out on that, and puts back the files that changed. Graphviz is
left to the user. -/

namespace ModuleGraph.Program

def spelled (place : List String) : String := (Path.ofPlace place).text

def realPlace? (path : String) : IO (Option (List String)) := do
  try
    return some (Path.ofString (← IO.FS.realPath path).toString).parts
  catch _ => return none

/-- Tries an access to a place, and records if the system refuses it. -/
def attempt {α : Type} (d : Disk) (accesses : List Access) (place : List String)
    (work : IO α) : IO (Disk × Option α) := do
  try
    return (d, some (← work))
  catch
    | .permissionDenied .. =>
      return (accesses.foldl (fun d a => d.refuse a (.ofPlace place) .denied) d, none)
    | _ => return (d, none)

def putNode (d : Disk) (place : List String) (node : FileTree) : Disk :=
  { d with tree := d.tree.put place node }

def putDirectory (d : Disk) (place : List String) : Disk :=
  { d with tree := d.tree.putDirectory place }

def putRefused (d : Disk) (a : Access) (place : List String) : Disk :=
  if (d.refusal a (.ofPlace place)).isSome then putNode d place (.file []) else d

def kind? (d : Disk) (place : List String) : IO (Disk × Option IO.FS.FileType) :=
  let entry : IO.FS.DirEntry := ⟨spelled place.dropLast, place.getLast?.getD ""⟩
  attempt d [.look, .lookAtEntry] place do
    return (← entry.path.symlinkMetadata).type

def takeFile (d : Disk) (place : List String) (isWanted : Bool) : IO Disk := do
  let (d, content) ← attempt d [.read] place do
    if isWanted then (·.toList) <$> IO.FS.readBinFile (spelled place) else pure []
  match content with
  | some content => return putNode d place (.file content)
  | none => return putRefused d .read place

/-- Takes in a link under its real target. A link that leads nowhere gets a target that
cannot exist. -/
def takeLink (d : Disk) (place : List String) (isWanted : Bool) : IO Disk := do
  match ← realPlace? (spelled place) with
  | none => return putNode d place (.link "\x00")
  | some target =>
    let d := putNode d place (.link (spelled target))
    match ← kind? d target with
    | (d, some .dir) => return putDirectory d target
    | (d, some _) => takeFile d target isWanted
    | (d, none) => return d

/-- Takes in a directory with all below it, and the content of the files that the settings
call module files. -/
partial def takeDirectory (s : Settings) (d : Disk) (place : List String) : IO Disk := do
  let accepted (name : String) : Bool :=
    match s.suffix with
    | .text suffix => nameEndsWith suffix name
    | _ => false
  let (d, entries) ← attempt (putDirectory d place) [.list] place do
    (← IO.FS.realPath (spelled place)).readDir
  let mut d := d
  for entry in entries.getD #[] do
    let name := entry.fileName
    let inner := place ++ [name]
    let (looked, kind) ← kind? d inner
    d := looked
    match kind with
    | some .dir =>
      if s.excludes name then d := putDirectory d inner else d ← takeDirectory s d inner
    | some .symlink => d ← takeLink d inner (accepted name)
    | some _ => d ← takeFile d inner (accepted name)
    | none => d := putRefused d .look inner
  return d

def takeSettingsFile (d : Disk) (place : List String) : IO Disk := do
  match ← kind? d place with
  | (d, some .dir) => return putDirectory d place
  | (d, some .symlink) => takeLink d place true
  | (d, some _) => takeFile d place true
  | (d, none) => return d

def takeSettings (d : Disk) (root : List String) : IO Disk :=
  [Settings.fileName, Settings.packageName].foldlM
    (fun d name => takeSettingsFile d (root ++ [name])) d

def takeProject (d : Disk) (root : List String) : IO Disk := do
  match ← kind? d root with
  | (d, some .dir) =>
    let d ← takeSettings (putDirectory d root) root
    match ((Settings.load .usual d (.ofPlace root)).result).1 with
    | .ok s => takeSettings (← takeDirectory s d root) root
    | .error _ => return d
  | (d, _) => takeFile d root false

def takePath (d : Disk) (p : Path) : IO Disk := do
  let mut d := d
  for n in List.range p.parts.length do
    let place := normalizeParts (d.start p ++ p.parts.take (n + 1))
    if (d.tree.at? place).isNone then
      let (looked, kind) ← kind? d place
      d := looked
      match kind with
      | some .dir => d := putDirectory d place
      | some .symlink => d ← takeLink d place false
      | some _ => d ← takeFile d place false
      | none => pure ()
  return d

/-- Writes the files that one disk has and another has not. -/
def putBack (before after : Disk) : IO Unit := do
  for (place, content) in after.tree.files do
    let isSame :=
      match before.tree.at? place with
      | some (.file old) => old == content
      | _ => false
    unless isSame do
      IO.FS.createDirAll (spelled place.dropLast)
      IO.FS.writeBinFile (spelled place) ⟨content.toArray⟩

/-- Takes in what choices are about. A project that exists is named by its real place. -/
def prepare (c : CommandLine.Choices) : IO (CommandLine.Choices × Disk) := do
  let here := (← realPlace? ".").getD []
  let d : Disk := ⟨FileTree.empty.putDirectory here, here, refuseOverlong⟩
  let (c, d) ←
    match ← realPlace? (c.path.getD ".") with
    | some root => pure ({ c with path := some (spelled root) }, ← takeProject d root)
    | none => pure (c, d)
  match c.output with
  | some output => return (c, ← takePath d (.ofString output))
  | none => return (c, d)

def conclude (before : Disk) (e : CommandLine.Execution) : IO UInt32 := do
  try putBack before e.disk
  catch fault =>
    IO.eprintln s!"Analysis failed: {fault}"
    return 1
  match e.result with
  | .ok t =>
    IO.print t.output
    IO.eprint t.complaints
    return t.exitCode.toUInt32
  | .error _ =>
    IO.eprintln "The project or its settings cannot be used."
    return 1

end ModuleGraph.Program

open ModuleGraph in
def main (arguments : List String) : IO UInt32 := do
  match CommandLine.read arguments with
  | .ok (some choices) =>
    let (choices, d) ← Program.prepare choices
    Program.conclude d (choices.execute TypeScript.parse .usual d none)
  | _ =>
    let d : Disk := ⟨FileTree.empty, [], refuseOverlong⟩
    Program.conclude d (CommandLine.execute TypeScript.parse .usual d none arguments)
