import ModuleGraph.Extraction
import ModuleGraph.FileTree.Walk
import ModuleGraph.Linking
import ModuleGraph.Registration
import ModuleGraph.Settings

/-! Analysing a project: reading its settings, walking its files, registering the module of
each of them and linking the graph that results. The parser of the files is a parameter, as is the
stack. -/

namespace ModuleGraph

/-- What a project declares. `name` is a text unless the package file holds something else
for it. -/
structure Project where
  name : Value
  root : Path
  modules : ModuleMap

namespace Project

variable (parse : String → Node) (stack : Stack) (d : Disk)

/-- The name in the package file, or else the name of the directory. -/
def nameOf (root : Path) : Reporting Value := do
  let file := root.child Settings.packageName
  if !(← Reporting.access (d.contains file)) then return .text root.name
  match d.readText file with
  | .error _ => return .text root.name
  | .ok cs =>
    if stack.nameOverflows cs then throw .stackExhausted
    match Json.parse (String.ofList cs) with
    | .error _ => return .text root.name
    | .ok v =>
      match v.get? "name" with
      | some name => return if name.isTruthy then name else .text root.name
      | none => return .text root.name

def title (root : Path) : Option String → Reporting Value
  | none | some "" => nameOf stack d root
  | some name => pure (.text name)

def scan (s : Settings) (root : Path) : Reporting Walk :=
  let walk := d.walk stack.levels s.excludes s.accepts root
  match s.suffix, walk.files with
  | .text _, _ | _, [] => pure walk
  | _, _ => throw .wrongType

def finish (walk : Walk) : Reporting Unit :=
  match walk.failure with
  | none => pure ()
  | some e => do
    Reporting.report e.notices
    throw e.failure

/-- The module files below a directory, if all of it can be walked. -/
def moduleFiles (s : Settings) (root : Path) : Reporting (List Path) := do
  let walk ← scan stack d s root
  finish walk
  return walk.files

def readFile (m : ModuleMap) (file : Path) : Reporting ModuleMap := do
  match d.readLossy file with
  | .error e =>
    Reporting.report [.readFailed file.text]
    throw (.access e)
  | .ok source =>
    let reading := readModule (parse source) file.text {}
    Reporting.report reading.notices
    match reading.module with
    | none => return m
    | some record =>
      let declaration : Declaration := ⟨file.text, record⟩
      Reporting.report (m.registerNotices declaration)
      return m.register declaration

/-- The graph of all modules that the files below a directory declare, not linked yet. Each file
is read as soon as the walk finds it, so a walk that ends early fails after these files. -/
def extract (s : Settings) (root : Path) : Reporting ModuleMap := do
  let walk ← scan stack d s root
  let modules ← walk.files.foldlM (readFile parse d) .empty
  finish walk
  Reporting.report [.scanned walk.files.length modules.size]
  return modules

def analyze (path : Path) (name : Option String) : Reporting Project := do
  let some root := d.resolve? path | throw .linkCircle
  let isDirectory ← Reporting.access (d.isDirectory root)
  let settings ← if isDirectory then Settings.load stack d root else pure {}
  let title ← title stack d root name
  if !settings.exclude.all (·.isAtomic) then throw .wrongType
  if !isDirectory then throw (.notDirectory root)
  Reporting.report [.projectFound title.message root.text]
  let modules ← extract parse stack d settings root
  Reporting.report [modules.linkNotice]
  return ⟨title, root, modules.link⟩

end Project

end ModuleGraph
