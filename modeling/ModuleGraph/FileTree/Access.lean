import ModuleGraph.FileTree.Resolution
import ModuleGraph.Text.Newline
import ModuleGraph.Text.Utf8

/-! Reading and writing the files of a disk. -/

namespace ModuleGraph.Disk

/-- The node that a look at a path shows, if there is one. Only a refusal or a path that cannot
exist makes the look fail. -/
def node? (d : Disk) (a : Access) (p : Path) : Except AccessError (Option FileTree) :=
  match d.refusal a p with
  | some r => .error ⟨.refused r, p⟩
  | none =>
    match d.reach a p with
    | .ok (.node _ t) => .ok (some t)
    | .error .nameTooLong => .error ⟨.nameTooLong, p⟩
    | _ => .ok none

def contains (d : Disk) (p : Path) : Except AccessError Bool :=
  Option.isSome <$> d.node? .look p

def isDirectory (d : Disk) (p : Path) : Except AccessError Bool :=
  (fun
    | some (.directory _) => true
    | _ => false) <$> d.node? .look p

def isLink (d : Disk) (p : Path) : Except AccessError Bool :=
  (fun
    | some (.link _) => true
    | _ => false) <$> d.node? .lookAtEntry p

def readDirectory (d : Disk) (p : Path) : Except AccessError (List (String × FileTree)) :=
  match d.access .list p with
  | .ok (.node _ (.directory entries)) => .ok entries
  | .ok (.node _ _) => .error ⟨.notDirectory, p⟩
  | .ok (.free _ _) => .error ⟨.missing, p⟩
  | .ok (.slashed fault) | .error fault => .error ⟨fault, p⟩

def read (d : Disk) (p : Path) : Except AccessError (List UInt8) :=
  match d.access .read p with
  | .ok (.node _ (.file content)) => .ok content
  | .ok (.node _ _) => .error ⟨.isDirectory, p⟩
  | .ok (.free _ _) => .error ⟨.missing, p⟩
  | .ok (.slashed fault) | .error fault => .error ⟨fault, p⟩

def readLossy (d : Disk) (p : Path) : Except AccessError String :=
  (fun bytes => String.ofList (unifyNewlines (Utf8.decodeLossy bytes))) <$> d.read p

/-- The text of a file that is UTF-8, or the reason why it has none. -/
def readText (d : Disk) (p : Path) : Except String (List Char) :=
  match d.read p with
  | .error e => .error e.message
  | .ok bytes =>
    match Utf8.decode bytes with
    | .error fault => .error fault.message
    | .ok cs => .ok (unifyNewlines cs)

/-- Puts content into a file, and makes the file if its directory exists. -/
def write (d : Disk) (p : Path) (content : List UInt8) : Except AccessError Disk :=
  match d.access .write p with
  | .ok (.node place (.file _)) => .ok { d with tree := d.tree.put place (.file content) }
  | .ok (.node _ _) | .ok (.slashed _) => .error ⟨.isDirectory, p⟩
  | .ok (.free directory name) =>
    .ok { d with tree := d.tree.put (directory ++ [name]) (.file content) }
  | .error fault => .error ⟨fault, p⟩

def makeDirectory (d : Disk) (p : Path) : Except AccessError Disk :=
  match d.access .make p with
  | .ok (.node _ _) => .error ⟨.taken, p⟩
  | .ok (.free directory name) => .ok { d with tree := d.tree.put (directory ++ [name]) .empty }
  | .ok (.slashed fault) | .error fault => .error ⟨fault, p⟩

end ModuleGraph.Disk
