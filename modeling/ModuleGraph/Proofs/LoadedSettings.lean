import ModuleGraph.Proofs.DirectPath
import ModuleGraph.Proofs.Reporting

/-! What loading the settings of a project comes to, without the notices on the way. It depends on
its two files only through a first look at each and through the text that can be read from it. -/

namespace ModuleGraph

namespace Disk

variable {d : Disk} {p : Path}

theorem hasFile_of_read {content : List UInt8} (h : d.read p = .ok content) :
    d.HasFile p content :=
  (read_eq_ok_iff.mp h).2

theorem contains_of_hasFile {content : List UInt8} {found : Bool} (h : d.HasFile p content)
    (hthere : d.contains p = .ok found) : found = true := by
  obtain ⟨place, hplace⟩ := h
  have hreach : d.reach .look p = .ok (.node place (.file content)) := hplace
  cases hshown : d.node? .look p with
  | error e =>
    rw [contains, hshown] at hthere
    cases hthere
  | ok shown =>
    obtain rfl := eq_of_node?_eq_ok hreach hshown
    rw [contains, hshown] at hthere
    exact (Except.ok.inj hthere).symm

theorem readText_eq_ok {cs : List Char} (h : d.readText p = .ok cs) :
    ∃ content, d.HasFile p content := by
  rw [readText] at h
  cases hread : d.read p with
  | error e => simp [hread] at h
  | ok content => exact ⟨content, hasFile_of_read hread⟩

end Disk

namespace Settings

variable {stack : Stack} {d : Disk} {root : Path}

/-- What the content of a project's own settings file comes to. -/
def ofToml (stack : Stack) (bytes : List UInt8) : Except Failure (Option Value) :=
  match Utf8.decode bytes with
  | .error fault => .error (.undecodable fault)
  | .ok cs =>
    if stack.tomlOverflows (foldReturns cs) then .error .stackExhausted
    else
      match Toml.parse (foldReturns cs) with
      | .ok entries => .ok (section? (.table entries))
      | .error fault => if fault.cause = .integerTooLong then .error .integerTooLong else .ok none

/-- What the text of a package file comes to. -/
def ofJson (stack : Stack) (cs : List Char) : Except Failure (Option Value) :=
  if stack.jsonOverflows cs then .error .stackExhausted
  else
    match Json.parse (String.ofList cs) with
    | .ok v => .ok (section? v)
    | .error _ => .ok none

theorem result_ofOwnFile : (ofOwnFile stack d root).result.1 =
    match d.contains (root.child fileName), d.read (root.child fileName) with
    | .error e, _ => .error (.access e)
    | .ok _, .error _ => .ok none
    | .ok _, .ok bytes => ofToml stack bytes := by
  rw [ofOwnFile]
  cases hthere : d.contains (root.child fileName) with
  | error e => rfl
  | ok found =>
    cases hread : d.read (root.child fileName) with
    | error e => cases found <;> rfl
    | ok bytes =>
      obtain rfl := Disk.contains_of_hasFile (Disk.hasFile_of_read hread) hthere
      dsimp only
      rw [ofToml]
      cases Utf8.decode bytes with
      | error fault => rfl
      | ok cs =>
        dsimp only
        by_cases hdeep : stack.tomlOverflows (foldReturns cs) = true
        · rw [hdeep]
          rfl
        · rw [Bool.not_eq_true] at hdeep
          rw [hdeep]
          cases Toml.parse (foldReturns cs) with
          | ok entries => rfl
          | error fault =>
            dsimp only
            by_cases hlong : fault.cause = .integerTooLong
            · rw [if_pos hlong, if_pos hlong]
              rfl
            · rw [if_neg hlong, if_neg hlong]
              rfl

theorem result_ofPackageFile : (ofPackageFile stack d root).result.1 =
    match d.contains (root.child packageName), d.readText (root.child packageName) with
    | .error e, _ => .error (.access e)
    | .ok _, .error _ => .ok none
    | .ok _, .ok cs => ofJson stack cs := by
  rw [ofPackageFile]
  cases hthere : d.contains (root.child packageName) with
  | error e => rfl
  | ok found =>
    cases hread : d.readText (root.child packageName) with
    | error cause => cases found <;> rfl
    | ok cs =>
      obtain ⟨content, hcontent⟩ := Disk.readText_eq_ok hread
      obtain rfl := Disk.contains_of_hasFile hcontent hthere
      dsimp only
      rw [ofJson]
      by_cases hdeep : stack.jsonOverflows cs = true
      · rw [hdeep]
        rfl
      · rw [Bool.not_eq_true] at hdeep
        rw [hdeep]
        cases Json.parse (String.ofList cs) <;> rfl

theorem result_load : (load stack d root).result.1 =
    (ofOwnFile stack d root).result.1 >>= fun
      | some v => (ofValue v).result.1
      | none => (ofPackageFile stack d root).result.1 >>= fun
        | some v => (ofValue v).result.1
        | none => .ok {} := by
  refine (Reporting.fst_result_bind fun own => ?_).trans (congrArg _ (funext fun own => ?_))
  · cases own with
    | some v => exact appends_ofValue v
    | none =>
      refine (appends_ofPackageFile stack d root).bind fun package => ?_
      cases package with
      | some v => exact appends_ofValue v
      | none => exact Reporting.appends_pure _
  · cases own with
    | some v => rfl
    | none =>
      refine (Reporting.fst_result_bind fun package => ?_).trans
        (congrArg _ (funext fun package => ?_))
      · cases package with
        | some v => exact appends_ofValue v
        | none => exact Reporting.appends_pure _
      · cases package <;> rfl

end Settings

end ModuleGraph
