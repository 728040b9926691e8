import ModuleGraph.Document
import ModuleGraph.Dot
import ModuleGraph.Notice
import ModuleGraph.Text.Lowercase

/-! The forms in which a module graph is written. -/

namespace ModuleGraph

inductive Format where
  | json
  | dot
  deriving DecidableEq, Repr

namespace Format

def label : Format → String
  | json => "json"
  | dot => "dot"

def all : List Format := [json, dot]

def ofLabel? (label : String) : Option Format :=
  all.find? (·.label = label)

/-- The label that a request means: in lower case, and JSON if it is missing or empty. -/
def requested (request : Option String) : String :=
  match request with
  | none | some "" => json.label
  | some text => lowercase text

/-- The requested format, and JSON for any request that names none. -/
def ofRequest (request : Option String) : Format :=
  (ofLabel? (requested request)).getD json

def requestNotices (request : Option String) : List Notice :=
  match ofLabel? (requested request) with
  | some _ => []
  | none => [.formatUnknown (requested request)]

end Format

def ModuleMap.render (m : ModuleMap) : Format → String
  | .json => m.renderJson
  | .dot => m.renderDot

end ModuleGraph
