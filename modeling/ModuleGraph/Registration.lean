import ModuleGraph.ModuleMap
import ModuleGraph.Notice

/-! Registering the modules that files declare. A later module of a name replaces the
earlier one and keeps its position, and a warning tells which file lost. -/

namespace ModuleGraph

structure Declaration where
  file : String
  record : ModuleRecord
  deriving DecidableEq, Repr

namespace ModuleMap

def register (m : ModuleMap) (d : Declaration) : ModuleMap :=
  m.insert d.record.name { d.record with filePath := some d.file }

/-- What registering a module reports: the module it replaces, if any, and itself. -/
def registerNotices (m : ModuleMap) (d : Declaration) : List Notice :=
  let replaced :=
    match m.find? d.record.name with
    | some previous => [Notice.moduleReplaced d.record.name d.file previous.filePath]
    | none => []
  replaced ++ [.moduleRegistered d.record.name d.file]

end ModuleMap

end ModuleGraph
