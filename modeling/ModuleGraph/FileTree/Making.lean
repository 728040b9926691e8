import ModuleGraph.Failure

/-! Making directories together with the ones above them. -/

namespace ModuleGraph.Disk

/-- A directory that could not be made is no failure if it is there. -/
def tolerate (d : Disk) (p : Path) (e : AccessError) : Option Failure :=
  match d.isDirectory p with
  | .ok true => none
  | .ok false => some (.access e)
  | .error e => some (.access e)

/-- Makes the directory with the given parts, last one first, and every directory that it needs,
at most `parents` of them. What has been made stays even if a later one fails. -/
def ensureParts (d : Disk) (root : String) : Nat → List String → Disk × Option Failure
  | _, [] =>
    let p : Path := ⟨root, []⟩
    match d.makeDirectory p with
    | .ok d => (d, none)
    | .error e => (d, d.tolerate p e)
  | parents, name :: above =>
    let p : Path := ⟨root, (name :: above).reverse⟩
    match d.makeDirectory p with
    | .ok d => (d, none)
    | .error e =>
      if e.fault = .missing then
        match parents with
        | 0 => (d, some .stackExhausted)
        | parents + 1 =>
          match d.ensureParts root parents above with
          | (d, some failure) => (d, some failure)
          | (d, none) =>
            match d.makeDirectory p with
            | .ok d => (d, none)
            | .error e => (d, if e.fault = .missing then some (.access e) else d.tolerate p e)
      else (d, d.tolerate p e)
termination_by structural _ parts => parts

def ensureDirectory (d : Disk) (parents : Nat) (p : Path) : Disk × Option Failure :=
  d.ensureParts p.root parents p.parts.reverse

end ModuleGraph.Disk
