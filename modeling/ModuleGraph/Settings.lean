import ModuleGraph.Failure
import ModuleGraph.Json.Reader
import ModuleGraph.Stack
import ModuleGraph.Toml.Reader

/-! The settings of a project: which directories a walk skips and how module files are
named. They stand in the project's own settings file, or else in its package file. A file
that cannot be read or holds no settings counts as missing. -/

namespace ModuleGraph

structure Settings where
  exclude : List Value := []
  suffix : Value := .text moduleSuffix

namespace Settings

def fileName : String := ".nestdeps.toml"

def packageName : String := "package.json"

def sectionName : String := "nestdeps"

/-- The settings that a value holds, if it holds a table of them that is not empty. -/
def section? (v : Value) : Option Value :=
  match v.get? sectionName with
  | some (.table (e :: es)) => some (.table (e :: es))
  | _ => none

section Files

variable (stack : Stack) (d : Disk) (root : Path)

def ofOwnFile : Reporting (Option Value) := do
  let file := root.child fileName
  if !(← Reporting.access (d.contains file)) then return none
  match d.read file with
  | .error e =>
    Reporting.report [.settingsIgnored file.text e.message]
    return none
  | .ok bytes =>
    match Utf8.decode bytes with
    | .error fault => throw (.undecodable fault)
    | .ok cs =>
      let cs := foldReturns cs
      if stack.tomlOverflows cs then throw .stackExhausted
      match Toml.parse cs with
      | .ok entries => return section? (.table entries)
      | .error fault =>
        if fault.cause = .integerTooLong then throw .integerTooLong
        Reporting.report [.settingsIgnored file.text (fault.message cs)]
        return none

def ofPackageFile : Reporting (Option Value) := do
  let file := root.child packageName
  if !(← Reporting.access (d.contains file)) then return none
  match d.readText file with
  | .error cause =>
    Reporting.report [.settingsIgnored file.text cause]
    return none
  | .ok cs =>
    if stack.jsonOverflows cs then throw .stackExhausted
    let text := String.ofList cs
    match Json.parse text with
    | .ok v => return section? v
    | .error fault =>
      Reporting.report [.settingsIgnored file.text (fault.message text)]
      return none

end Files

/-- Reads settings from a table. What it leaves out has its default. -/
def ofValue (v : Value) : Reporting Settings := do
  let exclude := (v.get? "exclude").getD (.list [])
  match exclude.items? with
  | some exclude => return { exclude, suffix := (v.get? "suffix").getD (.text moduleSuffix) }
  | none => throw .wrongType

def load (stack : Stack) (d : Disk) (root : Path) : Reporting Settings := do
  match ← ofOwnFile stack d root with
  | some v => ofValue v
  | none =>
    match ← ofPackageFile stack d root with
    | some v => ofValue v
    | none => return {}

def excludes (s : Settings) (name : String) : Bool :=
  s.exclude.any fun
    | .text t => t = name
    | _ => false

/-- Whether a walk takes an entry of a name for a file. A suffix that is no text cannot be
compared with any name, which shows at the first entry. -/
def accepts (s : Settings) (name : String) : Bool :=
  match s.suffix with
  | .text suffix => nameEndsWith suffix name
  | _ => true

end Settings

end ModuleGraph
