import ModuleGraph.Extraction
import ModuleGraph.Format
import ModuleGraph.Linking
import ModuleGraph.Registration

/-! A module graph that is worked on step by step. Each step takes the graph that the
previous one left and replies; a step that fails leaves the graph as it was. -/

namespace ModuleGraph.Session

inductive Step where
  /-- Read a file afresh and register its module. -/
  | register (root : Node) (file : String)
  /-- Start over from a saved document. -/
  | load (text : String)
  /-- Start over from the modules given. -/
  | replace (modules : ModuleMap)
  /-- Save the graph and load what was saved. -/
  | reload
  | remove (name : String)
  | link
  /-- Everything that the provider of a name or token needs. -/
  | closure (name : String)
  | render (format : Format)

inductive Reply where
  | registered (name : Option String)
  | changed
  | removed (found : Bool)
  | names (names : List String)
  | text (text : String)
  | failed (source : String) (error : Document.Error)
  /-- The document can be read and holds something other than proper records. -/
  | improper

structure Outcome where
  modules : ModuleMap
  reply : Reply
  notices : List Notice := []

/-- The graph that a saved text holds, in place of the present one. -/
def loadInto (m : ModuleMap) (text : String) : Outcome :=
  match Document.load text with
  | .error e => ⟨m, .failed text e, []⟩
  | .ok document =>
    match document.modules? with
    | some loaded => ⟨loaded, .changed, []⟩
    | none => ⟨m, .improper, []⟩

def registerFile (m : ModuleMap) (root : Node) (file : String) : Outcome :=
  let reading := readModule root file {}
  match reading.module with
  | none => ⟨m, .registered none, reading.notices⟩
  | some record =>
    let declaration : Declaration := ⟨file, record⟩
    ⟨m.register declaration, .registered (some record.name),
      reading.notices ++ m.registerNotices declaration⟩

def Step.run (m : ModuleMap) : Step → Outcome
  | register root file => registerFile m root file
  | load text => loadInto m text
  | replace modules => ⟨modules, .changed, []⟩
  | reload => loadInto m m.renderJson
  | remove name => ⟨m.erase name, .removed (m.contains name), []⟩
  | link => ⟨m.link, .changed, [m.linkNotice]⟩
  | closure name => ⟨m, .names (m.closure name), []⟩
  | render format => ⟨m, .text (m.render format), []⟩

def runAll (m : ModuleMap) : List Step → List Outcome
  | [] => []
  | s :: steps =>
    let outcome := s.run m
    outcome :: runAll outcome.modules steps

end ModuleGraph.Session
