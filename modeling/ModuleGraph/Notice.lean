import ModuleGraph.Text.Quoting

/-! What the analysis reports while it works. A notice is a cause; its wording is
given in one place. -/

namespace ModuleGraph

inductive Level where
  | debug
  | info
  | warning
  | error
  deriving DecidableEq, Repr

namespace Level

def rank : Level → Nat
  | debug => 0
  | info => 1
  | warning => 2
  | error => 3

def label : Level → String
  | debug => "DEBUG"
  | info => "INFO"
  | warning => "WARNING"
  | error => "ERROR"

def ofLabel? : String → Option Level
  | "DEBUG" => some debug
  | "INFO" => some info
  | "WARNING" => some warning
  | "ERROR" => some error
  | _ => none

end Level

inductive Notice where
  | decoySkipped (file name : String)
  | noConfiguration (file name : String)
  | importUnrecognised (file text name : String)
  | providerDropped (file text : String)
  | moduleReplaced (name file : String) (previous : Option String)
  | moduleRegistered (name file : String)
  | scanned (files modules : Nat)
  | scanFailed (directory : String)
  | readFailed (file : String)
  | linked (imports dependencies modules : Nat)
  | settingsIgnored (file cause : String)
  | projectFound (name root : String)
  | formatUnknown (format : String)
  | jsonSaved (file : String)
  | dotSaved (file : String)
  | graphvizMissing (file image : String)
  | graphvizFailed (complaint : String)
  | imageSaved (image : String)
  | analysisFailed (cause : String)
  deriving DecidableEq, Repr

namespace Notice

def level : Notice → Level
  | moduleReplaced .. | graphvizMissing .. | graphvizFailed .. => .warning
  | scanFailed .. | readFailed .. | analysisFailed .. => .error
  | jsonSaved .. | dotSaved .. | imageSaved .. => .info
  | _ => .debug

def message : Notice → String
  | decoySkipped file name => s!"{file}: skipping decoy module class {name}"
  | noConfiguration file name =>
    s!"{file}: @Module has no configuration object, using {name}"
  | importUnrecognised file text name =>
    s!"{file}: unrecognised import {quoted text} recorded as {name}"
  | providerDropped file text => s!"{file}: dropping provider {quoted text}"
  | moduleReplaced name file previous =>
    let earlier := previous.getD "None"
    s!"Module {name} in {file} replaces the one declared in {earlier}"
  | moduleRegistered name file => s!"Registered module {name} from {file}"
  | scanned files modules =>
    s!"NestJS: {files} module files, {modules} modules registered"
  | scanFailed directory => s!"Error scanning directory {directory}"
  | readFailed file => s!"Error parsing module {file}"
  | linked imports dependencies modules =>
    s!"Linked {imports} imports and {dependencies} provider dependencies " ++
      s!"across {modules} modules"
  | settingsIgnored file cause => s!"Could not read {file}: {cause}"
  | projectFound name root => s!"Project: {name}, root: {root}"
  | formatUnknown format => s!"Unknown output format {quoted format}, using json"
  | jsonSaved file => s!"JSON saved to: {file}"
  | dotSaved file => s!"DOT file saved to: {file}"
  | graphvizMissing file image =>
    s!"Graphviz not found. To generate a PNG run: dot -Tpng {file} -o {image}"
  | graphvizFailed complaint => s!"dot -Tpng failed: {complaint}"
  | imageSaved image => s!"PNG visualization saved to: {image}"
  | analysisFailed cause => s!"Analysis failed: {cause}"

def line (n : Notice) : String :=
  s!"{n.level.label} {n.message}"

/-- Whether a log that starts at `threshold` shows the notice. -/
def isShown (threshold : Level) (n : Notice) : Bool :=
  threshold.rank ≤ n.level.rank

end Notice

def logLines (threshold : Level) (notices : List Notice) : List String :=
  (notices.filter (·.isShown threshold)).map (·.line)

end ModuleGraph
