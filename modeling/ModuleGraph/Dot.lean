import ModuleGraph.ModuleMap

/-! A module graph as a Graphviz document: one node per module, import edges between
modules, and edges from each provider to what it needs. -/

namespace ModuleGraph.Dot

def escapedName (cs : List Char) : List Char :=
  cs.flatMap (fun c => if c = '"' then ['\\', '"'] else [c])

/-- A label between double quotes, all on one line. -/
def escapedLabel (cs : List Char) : List Char :=
  cs.flatMap (fun c =>
    if c = '"' then ['\\', '"'] else if c = '\n' then ['\\', 'n'] else [c])

def quotedName (name : String) : List Char :=
  '"' :: (escapedName name.toList ++ ['"'])

/-- The label of a module: its name and what it counts, with written line breaks. Every number is
written in full, however long; only reading has a limit of digits. -/
def label (name : String) (m : ModuleRecord) : String :=
  s!"{name}\\nControllers: {m.controllers.length}\\nProviders: {m.providers.length}" ++
    s!"\\nImports: {m.imports.length}\\nEntities: {m.entityCount}"

def nodeLine (name : String) (m : ModuleRecord) : List Char :=
  "  ".toList ++ quotedName name ++ " [label=\"".toList ++ escapedLabel (label name m).toList ++
    "\"];".toList

def importStyle (i : ImportRecord) : String :=
  if i.isForwardReference then
    "[label=\"imports (forward ref)\", style=dashed, color=red]"
  else "[label=\"imports\"]"

def providerStyle : String := "[color=blue, style=dashed]"

def edgeLine (source target style : String) : List Char :=
  "  ".toList ++ quotedName source ++ " -> ".toList ++ quotedName target ++ [' '] ++
    style.toList ++ [';']

def importLines (name : String) (m : ModuleRecord) : List (List Char) :=
  m.imports.map (fun i => edgeLine name i.name (importStyle i))

def providerLines (m : ModuleRecord) : List (List Char) :=
  m.providers.flatMap (fun p => p.dependencies.map (fun d => edgeLine p.name d providerStyle))

def header : List String :=
  ["digraph \x7b", "  rankdir=LR;", "  node [shape=box, style=filled, fillcolor=lightgray];", ""]

def lines (m : ModuleMap) : List (List Char) :=
  header.map (·.toList) ++ m.entries.map (fun e => nodeLine e.1 e.2) ++ [[]] ++
    m.entries.flatMap (fun e => importLines e.1 e.2) ++ m.records.flatMap providerLines ++ [['}']]

end Dot

def ModuleMap.renderDot (m : ModuleMap) : String :=
  String.ofList (['\n'].intercalate (Dot.lines m))

end ModuleGraph
