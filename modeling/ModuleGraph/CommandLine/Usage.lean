/-! What the command line says about itself. -/

namespace ModuleGraph.CommandLine

def programName : String := "nestdeps"

/-- The line that sums up all options. -/
def usage : String :=
  s!"usage: {programName} [-h] [-p PATH] [-f FMT] [-o OUTPUT] [--name NAME] [-v]\n"

def description : String :=
  "NestJS module dependency analyzer — JSON or Graphviz output."

def optionLines : List String :=
  ["  -h, --help            show this help message and exit",
    "  -p PATH, --path PATH  Project path (default: current directory)",
    "  -f FMT, --format FMT  Output format: json or dot (default: json)",
    "  -o OUTPUT, --output OUTPUT",
    "                        Output file path (default: print to stdout)",
    "  --name NAME           Project display name (default: auto-detect from",
    "                        package.json)",
    "  -v, --verbose         Enable verbose (debug) output"]

def help : String :=
  let options := String.join (optionLines.map (· ++ "\n"))
  s!"{usage}\n{description}\n\noptions:\n{options}"

def complaint (message : String) : String :=
  s!"{usage}{programName}: error: {message}\n"

end ModuleGraph.CommandLine
