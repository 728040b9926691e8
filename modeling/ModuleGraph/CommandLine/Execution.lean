import ModuleGraph.CommandLine.Choices
import ModuleGraph.CommandLine.Usage
import ModuleGraph.Delivery

/-! Running the command line on a disk. -/

namespace ModuleGraph.CommandLine

structure Transcript where
  exitCode : Nat
  output : String := ""
  complaints : String := ""
  deriving DecidableEq, Repr

/-- The disk that a run leaves, with its transcript unless it breaks off. -/
structure Execution where
  disk : Disk
  result : Except Failure Transcript

/-- The request that choices stand for. Without a path it is about the working directory. -/
def Choices.request (c : Choices) (d : Disk) : Request where
  path := (c.path.map Path.ofString).getD (.ofPlace d.here)
  name := c.name
  format := c.format
  output := c.output.map Path.ofString

def Choices.threshold (c : Choices) : Level :=
  if c.isVerbose then .debug else .info

def shownNotices (threshold : Level) (notices : List Notice) : String :=
  String.join ((notices.filter (·.isShown threshold)).map (·.message ++ "\n"))

section Execution

variable (parse : String → Node) (stack : Stack)

/-- Carries out choices. The text of the graph is printed if it goes to no file, and a failure
of files is reported and no more. -/
def Choices.execute (c : Choices) (d : Disk) (painter : Option Painter) : Execution :=
  let outcome := (c.request d).run parse stack d painter
  match outcome.result with
  | .ok text =>
    let output := if c.output.isSome then "" else text ++ "\n"
    ⟨outcome.disk, .ok ⟨0, output, shownNotices c.threshold outcome.notices⟩⟩
  | .error failure =>
    match failure.fileMessage? with
    | none => ⟨outcome.disk, .error failure⟩
    | some message =>
      let notices := outcome.notices ++ [.analysisFailed message]
      ⟨outcome.disk, .ok ⟨1, "", shownNotices c.threshold notices⟩⟩

def execute (d : Disk) (painter : Option Painter) (arguments : List String) : Execution :=
  match read arguments with
  | .error refusal => ⟨d, .ok ⟨2, "", complaint refusal.message⟩⟩
  | .ok none => ⟨d, .ok ⟨0, help, ""⟩⟩
  | .ok (some c) => c.execute parse stack d painter

end Execution

end ModuleGraph.CommandLine
