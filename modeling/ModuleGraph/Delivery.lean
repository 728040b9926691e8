import ModuleGraph.FileTree.Making
import ModuleGraph.Format
import ModuleGraph.Project

/-! From a project to the text of its graph, and on request to files: the text itself, and
for DOT an image of it if a program that draws one is at hand. -/

namespace ModuleGraph

inductive Drawing where
  | image (content : List UInt8)
  | complaint (text : String)

/-- A program that draws images, by what it makes of its arguments. -/
abbrev Painter := List String → Drawing

/-- What is asked for: a project, the form of its graph, and where to put it. -/
structure Request where
  path : Path
  name : Option String := none
  format : Option String := none
  output : Option Path := none

structure Outcome where
  disk : Disk
  notices : List Notice
  result : Except Failure String

namespace Outcome

def draw (d : Disk) (painter : Option Painter) (p : Path) : Disk × Notice :=
  let image := p.withSuffix ".png"
  match painter with
  | none => (d, .graphvizMissing p.text image.text)
  | some paint =>
    match paint ["-Tpng", p.text, "-o", image.text] with
    | .complaint text => (d, .graphvizFailed (String.ofList (unifyNewlines text.toList)))
    | .image content =>
      match d.write image content with
      | .ok d => (d, .imageSaved image.text)
      | .error _ => (d, .imageSaved image.text)

def save (stack : Stack) (d : Disk) (painter : Option Painter) (format : Format) (p : Path)
    (text : String) : Outcome :=
  match d.ensureDirectory stack.parents p.parent with
  | (d, some failure) => ⟨d, [], .error failure⟩
  | (d, none) =>
    match d.write p (Utf8.encode text) with
    | .error e => ⟨d, [], .error (.access e)⟩
    | .ok d =>
      match format with
      | .json => ⟨d, [.jsonSaved p.text], .ok text⟩
      | .dot =>
        let (d, notice) := draw d painter p
        ⟨d, [.dotSaved p.text, notice], .ok text⟩

end Outcome

/-- Answers a request. Nothing is written before the whole text is there. -/
def Request.run (parse : String → Node) (stack : Stack) (d : Disk) (painter : Option Painter)
    (r : Request) : Outcome :=
  match (Project.analyze parse stack d r.path r.name).result with
  | (.error failure, notices) => ⟨d, notices, .error failure⟩
  | (.ok project, notices) =>
    let format := Format.ofRequest r.format
    let text := project.modules.render format
    let notices := notices ++ Format.requestNotices r.format
    match r.output with
    | none => ⟨d, notices, .ok text⟩
    | some p =>
      let saved := Outcome.save stack d painter format p text
      { saved with notices := notices ++ saved.notices }

end ModuleGraph
