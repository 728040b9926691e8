import ModuleGraph.FileTree.Access
import ModuleGraph.Notice

/-! What may stop the work on a project, and how work reports on its way. -/

namespace ModuleGraph

inductive Failure where
  | access (e : AccessError)
  /-- The project is no directory. -/
  | notDirectory (root : Path)
  | linkCircle
  | stackExhausted
  /-- The settings file is not UTF-8. -/
  | undecodable (fault : Utf8.Fault)
  | integerTooLong
  /-- A setting has a value of a kind that it cannot have. -/
  | wrongType
  deriving DecidableEq, Repr

/-- The text of a failure that files are the reason for. -/
def Failure.fileMessage? : Failure → Option String
  | access e => some e.message
  | notDirectory root => some s!"Not a directory: {root.text}"
  | _ => none

/-- Work that reports notices, in order, and may fail. -/
abbrev Reporting := ExceptT Failure (StateM (List Notice))

namespace Reporting

def report (notices : List Notice) : Reporting Unit :=
  modify (· ++ notices)

/-- Goes on with the result of an access, and fails as it does. -/
def access {α : Type} : Except AccessError α → Reporting α
  | .ok a => pure a
  | .error e => throw (.access e)

def result {α : Type} (work : Reporting α) : Except Failure α × List Notice :=
  work.run.run []

end Reporting

end ModuleGraph
