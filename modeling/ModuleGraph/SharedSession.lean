import ModuleGraph.Session

/-! A session whose provider records stay in one store from step to step. What linking lets
imports show goes on sharing its records with the module it was taken of, also when that module
is replaced or removed. Only a graph that is loaded or given starts with records of its own. -/

namespace ModuleGraph

namespace SharedGraph

/-- Puts a module under a name. Its records are new and get cells behind all others. -/
def insert (g : SharedGraph) (name : String) (record : ModuleRecord) : SharedGraph where
  store := g.store ++ record.held.toArray
  modules := g.modules.insert name (record.place g.store.size)

def register (g : SharedGraph) (d : Declaration) : SharedGraph :=
  g.insert d.record.name { d.record with filePath := some d.file }

/-- Takes a module out of the graph. Its cells stay, since snapshots may hold them. -/
def erase (g : SharedGraph) (name : String) : SharedGraph :=
  { g with modules := g.modules.erase name }

end SharedGraph

namespace Session

structure SharedOutcome where
  graph : SharedGraph
  reply : Reply
  notices : List Notice := []

/-- What can be seen of an outcome: records, and not which of them are shared. -/
def SharedOutcome.seen (o : SharedOutcome) : Outcome :=
  ⟨o.graph.view, o.reply, o.notices⟩

/-- Loads a saved text. Only a graph that is loaded takes the place of the present one. -/
def loadShared (g : SharedGraph) (text : String) : SharedOutcome :=
  let outcome := loadInto g.view text
  match outcome.reply with
  | .changed => ⟨outcome.modules.share, .changed, outcome.notices⟩
  | reply => ⟨g, reply, outcome.notices⟩

def registerShared (g : SharedGraph) (root : Node) (file : String) : SharedOutcome :=
  let outcome := registerFile g.view root file
  match (readModule root file {}).module with
  | none => ⟨g, outcome.reply, outcome.notices⟩
  | some record => ⟨g.register ⟨file, record⟩, outcome.reply, outcome.notices⟩

def Step.runShared (g : SharedGraph) : Step → SharedOutcome
  | register root file => registerShared g root file
  | load text => loadShared g text
  | replace modules => ⟨modules.share, .changed, []⟩
  | reload => loadShared g g.view.renderJson
  | remove name => ⟨g.erase name, .removed (g.modules.contains name), []⟩
  | link => ⟨g.link, .changed, [g.view.linkNotice]⟩
  | closure name => ⟨g, .names (g.view.closure name), []⟩
  | render format => ⟨g, .text (g.view.render format), []⟩

def runAllShared (g : SharedGraph) : List Step → List SharedOutcome
  | [] => []
  | s :: steps =>
    let outcome := s.runShared g
    outcome :: runAllShared outcome.graph steps

def seenOutcomes (g : SharedGraph) (steps : List Step) : List Outcome :=
  (runAllShared g steps).map (·.seen)

end Session

end ModuleGraph
