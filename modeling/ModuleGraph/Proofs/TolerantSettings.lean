import ModuleGraph.Proofs.LoadedSettings

/-! Settings of a project whose settings files may hold anything. A file that is missing, cannot be
read or holds no table of settings is passed over, and the next one counts. Loading stops only at a
file that is nested too deeply, and at a file of the project's own that is not UTF-8 or has an
integer with too many digits. -/

namespace ModuleGraph

namespace Settings

/-- The settings that the project's own file holds. What cannot be read holds none. -/
def ownHeld? (d : Disk) (root : Path) : Option Value :=
  match d.read (root.child fileName) with
  | .error _ => none
  | .ok bytes =>
    match Utf8.decode bytes with
    | .error _ => none
    | .ok cs =>
      match Toml.parse (foldReturns cs) with
      | .error _ => none
      | .ok entries => section? (.table entries)

/-- The settings that the package file holds. What cannot be read holds none. -/
def packageHeld? (d : Disk) (root : Path) : Option Value :=
  match d.readText (root.child packageName) with
  | .error _ => none
  | .ok cs =>
    match Json.parse (String.ofList cs) with
    | .error _ => none
    | .ok v => section? v

/-- The settings of a project, where every file that holds none is passed over. -/
def tolerant (d : Disk) (root : Path) : Except Failure Settings :=
  match (ownHeld? d root).or (packageHeld? d root) with
  | some v => (ofValue v).result.1
  | none => .ok {}

/-- The content of a project's own settings file that stops the loading, and why. -/
inductive OwnStops (stack : Stack) (bytes : List UInt8) : Failure → Prop
  | undecodable {fault : Utf8.Fault} : Utf8.decode bytes = .error fault →
      OwnStops stack bytes (.undecodable fault)
  | tooDeep {cs : List Char} : Utf8.decode bytes = .ok cs →
      stack.tomlOverflows (foldReturns cs) = true → OwnStops stack bytes .stackExhausted
  | integerTooLong {cs : List Char} {offset : Nat} : Utf8.decode bytes = .ok cs →
      stack.tomlOverflows (foldReturns cs) = false →
      Toml.parse (foldReturns cs) = .error ⟨.integerTooLong, offset⟩ →
      OwnStops stack bytes .integerTooLong

/-- What stops the loading of the settings of a project. The package file is read only if the
project's own file holds none. -/
inductive Stops (stack : Stack) (d : Disk) (root : Path) : Failure → Prop
  | own {bytes : List UInt8} {failure : Failure} : d.read (root.child fileName) = .ok bytes →
      OwnStops stack bytes failure → Stops stack d root failure
  | package {cs : List Char} :
      (∀ bytes failure, d.read (root.child fileName) = .ok bytes →
        ¬ OwnStops stack bytes failure) →
      ownHeld? d root = none → d.readText (root.child packageName) = .ok cs →
      stack.jsonOverflows cs = true → Stops stack d root .stackExhausted

variable {stack : Stack} {d : Disk} {root : Path} {failure failure' : Failure}
variable {bytes : List UInt8} {cs : List Char} {held : Option Value} {found found' : Bool}

theorem ofToml_eq_error_iff :
    ofToml stack bytes = .error failure ↔ OwnStops stack bytes failure := by
  rw [ofToml]
  constructor
  · intro h
    split at h
    · rename_i fault hdecode
      obtain rfl := Except.error.inj h
      exact .undecodable hdecode
    rename_i cs hdecode
    split at h
    · rename_i hdeep
      obtain rfl := Except.error.inj h
      exact .tooDeep hdecode hdeep
    rename_i hdeep
    split at h
    · cases h
    rename_i fault hparse
    split at h
    · rename_i hlong
      obtain ⟨cause, offset⟩ := fault
      obtain rfl : cause = .integerTooLong := hlong
      obtain rfl := Except.error.inj h
      exact .integerTooLong hdecode (by simpa using hdeep) hparse
    · cases h
  · intro h
    cases h with
    | undecodable hdecode => rw [hdecode]
    | tooDeep hdecode hdeep =>
      rw [hdecode]
      exact if_pos hdeep
    | integerTooLong hdecode hdeep hparse =>
      rw [hdecode]
      dsimp only
      rw [hdeep, hparse]
      rfl

theorem OwnStops.eq (h : OwnStops stack bytes failure) (h' : OwnStops stack bytes failure') :
    failure' = failure :=
  Except.error.inj ((ofToml_eq_error_iff.mpr h').symm.trans (ofToml_eq_error_iff.mpr h))

theorem ownHeld?_of_ofToml (hread : d.read (root.child fileName) = .ok bytes)
    (h : ofToml stack bytes = .ok held) : ownHeld? d root = held := by
  rw [ownHeld?, hread]
  rw [ofToml] at h
  dsimp only
  cases hdecode : Utf8.decode bytes with
  | error fault =>
    rw [hdecode] at h
    cases h
  | ok cs =>
    rw [hdecode] at h
    dsimp only at h ⊢
    by_cases hdeep : stack.tomlOverflows (foldReturns cs) = true
    · rw [if_pos hdeep] at h
      cases h
    rw [if_neg hdeep] at h
    cases hparse : Toml.parse (foldReturns cs) with
    | ok entries =>
      rw [hparse] at h
      exact Except.ok.inj h
    | error fault =>
      rw [hparse] at h
      dsimp only at h ⊢
      by_cases hlong : fault.cause = .integerTooLong
      · rw [if_pos hlong] at h
        cases h
      · rw [if_neg hlong] at h
        exact Except.ok.inj h

theorem packageHeld?_of_ofJson (hread : d.readText (root.child packageName) = .ok cs)
    (h : ofJson stack cs = .ok held) : packageHeld? d root = held := by
  rw [packageHeld?, hread]
  rw [ofJson] at h
  dsimp only
  by_cases hdeep : stack.jsonOverflows cs = true
  · rw [if_pos hdeep] at h
    cases h
  rw [if_neg hdeep] at h
  cases hparse : Json.parse (String.ofList cs) with
  | ok v =>
    rw [hparse] at h
    exact Except.ok.inj h
  | error fault =>
    rw [hparse] at h
    exact Except.ok.inj h

theorem ofJson_eq_error_iff : ofJson stack cs = .error failure ↔
    stack.jsonOverflows cs = true ∧ failure = .stackExhausted := by
  rw [ofJson]
  split
  · rename_i hdeep
    simp [hdeep, eq_comm]
  · rename_i hdeep
    split <;> simp [hdeep]

theorem Stops.eq (h : Stops stack d root failure) (h' : Stops stack d root failure') :
    failure' = failure := by
  cases h with
  | own hread hstops =>
    cases h' with
    | own hread' hstops' =>
      obtain rfl := Except.ok.inj (hread.symm.trans hread')
      exact hstops.eq hstops'
    | package hnone => exact absurd hstops (hnone _ _ hread)
  | package hnone =>
    cases h' with
    | own hread' hstops' => exact absurd hstops' (hnone _ _ hread')
    | package => rfl

/-- Without an obstacle the own file counts for what it holds, whether it can be read or not. -/
theorem result_ofOwnFile_cases (stack : Stack)
    (hown : d.contains (root.child fileName) = .ok found) :
    (∃ bytes failure, d.read (root.child fileName) = .ok bytes ∧ OwnStops stack bytes failure ∧
      (ofOwnFile stack d root).result.1 = .error failure) ∨
    (∀ bytes failure, d.read (root.child fileName) = .ok bytes →
      ¬ OwnStops stack bytes failure) ∧
      (ofOwnFile stack d root).result.1 = .ok (ownHeld? d root) := by
  rw [result_ofOwnFile, hown]
  cases hread : d.read (root.child fileName) with
  | error e => exact .inr ⟨fun _ _ h => (nomatch h), by rw [ownHeld?, hread]⟩
  | ok bytes =>
    dsimp only
    cases htoml : ofToml stack bytes with
    | error failure =>
      exact .inl ⟨bytes, failure, rfl, ofToml_eq_error_iff.mp htoml, rfl⟩
    | ok held =>
      refine .inr ⟨fun other failure hother h => ?_, by rw [ownHeld?_of_ofToml hread htoml]⟩
      obtain rfl := Except.ok.inj hother
      rw [ofToml_eq_error_iff.mpr h] at htoml
      cases htoml

theorem result_ofPackageFile_cases (stack : Stack)
    (hpackage : d.contains (root.child packageName) = .ok found) :
    (∃ cs, d.readText (root.child packageName) = .ok cs ∧ stack.jsonOverflows cs = true ∧
      (ofPackageFile stack d root).result.1 = .error .stackExhausted) ∨
    (∀ cs, d.readText (root.child packageName) = .ok cs → ¬ stack.jsonOverflows cs = true) ∧
      (ofPackageFile stack d root).result.1 = .ok (packageHeld? d root) := by
  rw [result_ofPackageFile, hpackage]
  cases hread : d.readText (root.child packageName) with
  | error cause => exact .inr ⟨fun _ h => (nomatch h), by rw [packageHeld?, hread]⟩
  | ok cs =>
    dsimp only
    cases hjson : ofJson stack cs with
    | error failure =>
      obtain ⟨hdeep, rfl⟩ := ofJson_eq_error_iff.mp hjson
      exact .inl ⟨cs, rfl, hdeep, rfl⟩
    | ok held =>
      refine .inr ⟨fun other hother hdeep => ?_, by rw [packageHeld?_of_ofJson hread hjson]⟩
      obtain rfl := Except.ok.inj hother
      rw [ofJson_eq_error_iff.mpr ⟨hdeep, rfl⟩] at hjson
      cases hjson

theorem result_load_cases (stack : Stack) (hown : d.contains (root.child fileName) = .ok found)
    (hpackage : d.contains (root.child packageName) = .ok found') :
    (∃ failure, Stops stack d root failure ∧ (load stack d root).result.1 = .error failure) ∨
      (∀ failure, ¬ Stops stack d root failure) ∧
        (load stack d root).result.1 = tolerant d root := by
  rw [result_load, tolerant]
  rcases result_ofOwnFile_cases stack hown with
    ⟨bytes, failure, hread, hstops, hresult⟩ | ⟨hnone, hresult⟩
  · exact .inl ⟨failure, .own hread hstops, by rw [hresult]; rfl⟩
  rw [hresult]
  have hown : ∀ failure, Stops stack d root failure → ownHeld? d root = none ∧
      ∃ cs, d.readText (root.child packageName) = .ok cs ∧ stack.jsonOverflows cs = true := by
    intro failure h
    cases h with
    | own hread hstops => exact absurd hstops (hnone _ _ hread)
    | package _ hheld hread hdeep => exact ⟨hheld, _, hread, hdeep⟩
  cases hheld : ownHeld? d root with
  | some v =>
    refine .inr ⟨fun failure h => ?_, rfl⟩
    obtain ⟨hnone, -⟩ := hown failure h
    rw [hheld] at hnone
    cases hnone
  | none =>
    rcases result_ofPackageFile_cases stack hpackage with
      ⟨cs, hread, hdeep, hresult⟩ | ⟨hshallow, hresult⟩
    · refine .inl ⟨_, .package hnone hheld hread hdeep, ?_⟩
      show (ofPackageFile stack d root).result.1 >>= _ = _
      rw [hresult]
      rfl
    · refine .inr ⟨fun failure h => ?_, ?_⟩
      · obtain ⟨-, cs, hread, hdeep⟩ := hown failure h
        exact hshallow cs hread hdeep
      · show (ofPackageFile stack d root).result.1 >>= _ = _
        rw [hresult, Option.none_or]
        cases packageHeld? d root <;> rfl

theorem tolerant_ne_of_stops (h : Stops stack d root failure) :
    tolerant d root ≠ .error failure := by
  have hreason : failure ≠ .wrongType := by
    cases h with
    | own _ hstops => cases hstops <;> simp
    | package => simp
  unfold tolerant
  split
  · unfold ofValue
    dsimp only
    split
    · exact fun h => by cases h
    · rintro ⟨⟩
      exact hreason rfl
  · exact fun h => by cases h

theorem result_load_of_stops (hown : d.contains (root.child fileName) = .ok found)
    (hpackage : d.contains (root.child packageName) = .ok found')
    (h : Stops stack d root failure) : (load stack d root).result.1 = .error failure := by
  rcases result_load_cases stack hown hpackage with ⟨reason, hreason, hresult⟩ | ⟨hnone, -⟩
  · rw [hresult, h.eq hreason]
  · exact absurd h (hnone failure)

/-- Loading passes over every file that holds no settings, whatever it holds instead, unless one of
the files stops it. Then it fails for a reason that is no failed access to a file. -/
theorem load_eq_tolerant_iff (hown : d.contains (root.child fileName) = .ok found)
    (hpackage : d.contains (root.child packageName) = .ok found') :
    ((load stack d root).result.1 = tolerant d root ↔ ∀ failure, ¬ Stops stack d root failure) ∧
    ∀ failure, Stops stack d root failure →
      (load stack d root).result.1 = .error failure ∧ failure.fileMessage? = none := by
  refine ⟨⟨fun heq failure h => ?_, fun hnone => ?_⟩,
    fun failure h => ⟨result_load_of_stops hown hpackage h, ?_⟩⟩
  · exact tolerant_ne_of_stops h (heq.symm.trans (result_load_of_stops hown hpackage h))
  · rcases result_load_cases stack hown hpackage with ⟨reason, hreason, -⟩ | ⟨-, hresult⟩
    · exact absurd hreason (hnone reason)
    · exact hresult
  · cases h with
    | own _ hstops => cases hstops <;> rfl
    | package => rfl

/-- The bytes of a text without characters beyond ASCII. -/
def plainBytes (text : String) : List UInt8 :=
  text.toList.map fun c => c.toNat.toUInt8

/-- A project whose package file excludes `dist`, with a settings file of its own. -/
def twoSettings (own : List UInt8) : Disk where
  tree := .directory [("p", .directory [(fileName, .file own),
    (packageName, .file (plainBytes "\x7b\"nestdeps\": \x7b\"exclude\": [\"dist\"]\x7d\x7d"))])]
  here := []

def twoSettingsRoot : Path := ⟨"/", ["p"]⟩

/-- The comment `# é` in Latin-1. -/
def latinComment : List UInt8 := [0x23, 0x20, 0xE9, 0x0A]

/-- A comment in another encoding stops the loading, although the package file holds settings. -/
theorem load_latinComment :
    (tolerant (twoSettings latinComment) twoSettingsRoot).map (·.excludes "dist") = .ok true ∧
    (load .usual (twoSettings latinComment) twoSettingsRoot).result.1.map (·.excludes "dist") =
      .error (.undecodable ⟨.invalidContinuation, [0xE9], 2⟩) := by
  exact ⟨by decide +kernel, by decide +kernel⟩

/-- The declaration of a table that is not closed does not stop it. -/
theorem load_unclosedTable :
    (load .usual (twoSettings (plainBytes "[nestdeps\n")) twoSettingsRoot).result.1 =
        tolerant (twoSettings (plainBytes "[nestdeps\n")) twoSettingsRoot ∧
    (tolerant (twoSettings (plainBytes "[nestdeps\n")) twoSettingsRoot).map (·.excludes "dist") =
      .ok true := by
  let d := twoSettings (plainBytes "[nestdeps\n")
  have hown : d.contains (twoSettingsRoot.child fileName) = .ok true := by decide +kernel
  have hpackage : d.contains (twoSettingsRoot.child packageName) = .ok true := by decide +kernel
  have hread : d.read (twoSettingsRoot.child fileName) = .ok (plainBytes "[nestdeps\n") := by
    decide +kernel
  have htoml : (ofToml .usual (plainBytes "[nestdeps\n")).isOk = true := by decide +kernel
  have hjson : d.readText (twoSettingsRoot.child packageName) =
      .ok "\x7b\"nestdeps\": \x7b\"exclude\": [\"dist\"]\x7d\x7d".toList := by decide +kernel
  refine ⟨(load_eq_tolerant_iff hown hpackage).1.mpr fun failure h => ?_, by decide +kernel⟩
  cases h with
  | own hbytes h =>
    obtain rfl := Except.ok.inj (hread.symm.trans hbytes)
    rw [ofToml_eq_error_iff.mpr h] at htoml
    cases htoml
  | package _ _ hchars hdeep =>
    obtain rfl := Except.ok.inj (hjson.symm.trans hchars)
    exact absurd hdeep (by decide +kernel)

end Settings

/-- What stops the loading of the settings ends the whole analysis. -/
theorem Project.result_analyze_of_stops {parse : String → Node} {stack : Stack} {d : Disk}
    {path root : Path} {found found' : Bool} {failure : Failure} (name : Option String)
    (hroot : d.resolve? path = some root) (hdirectory : d.isDirectory root = .ok true)
    (hown : d.contains (root.child Settings.fileName) = .ok found)
    (hpackage : d.contains (root.child Settings.packageName) = .ok found')
    (h : Settings.Stops stack d root failure) :
    (analyze parse stack d path name).result.1 = .error failure := by
  rw [result_analyze name hroot hdirectory, Settings.result_load_of_stops hown hpackage h]
  rfl

end ModuleGraph
