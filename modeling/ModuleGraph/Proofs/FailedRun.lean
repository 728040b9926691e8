import ModuleGraph.CommandLine.Execution
import ModuleGraph.Proofs.DeliveredText

/-! What a run leaves behind when it fails. It may have made directories on the way to its output
path, and nothing else: every file is as it was, and the command line prints no graph. -/

namespace ModuleGraph

/-- A text is not saved because its directory cannot be made or its file cannot be written. -/
theorem Outcome.save_eq_error {stack : Stack} {d : Disk} {painter : Option Painter}
    {format : Format} {p : Path} {text : String} {failure : Failure}
    (h : (save stack d painter format p text).result = .error failure) :
    ∃ made, (save stack d painter format p text).disk = made ∧
      (d.ensureDirectory stack.parents p.parent = (made, some failure) ∨
        ∃ e, failure = .access e ∧ d.ensureDirectory stack.parents p.parent = (made, none) ∧
          made.write p (Utf8.encode text) = .error e) := by
  rw [save] at h ⊢
  rcases hmade : d.ensureDirectory stack.parents p.parent with ⟨made, _ | stopped⟩
  · rw [hmade] at h
    dsimp only at h ⊢
    cases hwrite : made.write p (Utf8.encode text) with
    | error e =>
      rw [hwrite] at h
      exact ⟨made, rfl, .inr ⟨e, (Except.error.inj h).symm, rfl, hwrite⟩⟩
    | ok written =>
      -- Nothing fails once the text has been written.
      rw [hwrite] at h
      cases format <;> cases h
  · rw [hmade] at h
    obtain rfl := Except.error.inj h
    exact ⟨made, rfl, .inl rfl⟩

/-- How a request fails, and the disk that it leaves: the project cannot be analysed, the directory
of the output path cannot be made, or the output path cannot be written to. Nothing else fails. -/
inductive Request.Fails (parse : String → Node) (stack : Stack) (d : Disk) (r : Request) :
    Failure → Disk → Prop
  | analysing {failure : Failure} :
      (Project.analyze parse stack d r.path r.name).result.1 = .error failure →
        Fails parse stack d r failure d
  | preparing {project : Project} {p : Path} {made : Disk} {failure : Failure} :
      (Project.analyze parse stack d r.path r.name).result.1 = .ok project → r.output = some p →
      d.ensureDirectory stack.parents p.parent = (made, some failure) →
        Fails parse stack d r failure made
  | writing {project : Project} {p : Path} {made : Disk} {e : AccessError} :
      (Project.analyze parse stack d r.path r.name).result.1 = .ok project → r.output = some p →
      d.ensureDirectory stack.parents p.parent = (made, none) →
      made.write p (Utf8.encode (project.modules.render (Format.ofRequest r.format))) = .error e →
        Fails parse stack d r (.access e) made

namespace Request

variable {parse : String → Node} {stack : Stack} {d left : Disk} {painter : Option Painter}
variable {r : Request} {failure : Failure}

theorem run_of_analyze_error
    (h : (Project.analyze parse stack d r.path r.name).result.1 = .error failure) :
    (r.run parse stack d painter).result = .error failure ∧
      (r.run parse stack d painter).disk = d := by
  rw [run]
  generalize (Project.analyze parse stack d r.path r.name).result = analysed at h ⊢
  obtain ⟨_, notices⟩ := analysed
  subst h
  exact ⟨rfl, rfl⟩

theorem result_run_of_output_eq_none {project : Project}
    (h : (Project.analyze parse stack d r.path r.name).result.1 = .ok project)
    (hp : r.output = none) : (r.run parse stack d painter).result =
      .ok (project.modules.render (Format.ofRequest r.format)) := by
  rw [run]
  generalize (Project.analyze parse stack d r.path r.name).result = analysed at h ⊢
  obtain ⟨_, notices⟩ := analysed
  subst h
  rw [hp]

theorem fails_of_error (h : (r.run parse stack d painter).result = .error failure) :
    r.Fails parse stack d failure (r.run parse stack d painter).disk := by
  cases hanalysed : (Project.analyze parse stack d r.path r.name).result.1 with
  | error other =>
    obtain ⟨hresult, hdisk⟩ := @run_of_analyze_error parse stack d painter r other hanalysed
    obtain rfl := Except.error.inj (hresult.symm.trans h)
    rw [hdisk]
    exact .analysing hanalysed
  | ok project =>
    cases houtput : r.output with
    | none =>
      rw [result_run_of_output_eq_none hanalysed houtput] at h
      cases h
    | some p =>
      obtain ⟨hresult, hdisk⟩ :=
        @run_of_analyze parse stack d painter r p project hanalysed houtput
      rw [hresult] at h
      obtain ⟨made, hsaved, hmade | ⟨e, rfl, hmade, hwrite⟩⟩ := Outcome.save_eq_error h
      · rw [hdisk, hsaved]
        exact .preparing hanalysed houtput hmade
      · rw [hdisk, hsaved]
        exact .writing hanalysed houtput hmade hwrite

theorem Fails.keepsLeaves (h : r.Fails parse stack d failure left) : d.KeepsLeaves left := by
  cases h with
  | analysing => exact .refl d
  | @preparing _ p _ _ _ _ hmade =>
    have hkept := d.keepsLeaves_ensureDirectory stack.parents p.parent
    rwa [hmade] at hkept
  | @writing _ p _ _ _ _ hmade =>
    have hkept := d.keepsLeaves_ensureDirectory stack.parents p.parent
    rwa [hmade] at hkept

end Request

/-- Files are the reason for a failure: one cannot be accessed, or the project is no directory. -/
def Failure.IsOfFiles : Failure → Prop
  | access _ | notDirectory _ => True
  | _ => False

theorem Failure.isSome_fileMessage?_iff {failure : Failure} :
    failure.fileMessage?.isSome = true ↔ failure.IsOfFiles := by
  cases failure <;> simp [fileMessage?, IsOfFiles]

namespace CommandLine

variable {parse : String → Node} {stack : Stack} {d : Disk} {painter : Option Painter}
variable {failure : Failure} {c : Choices}

theorem execute_of_ofFiles
    (h : ((c.request d).run parse stack d painter).result = .error failure)
    (hfiles : failure.IsOfFiles) : ∃ complaints, c.execute parse stack d painter =
      ⟨((c.request d).run parse stack d painter).disk, .ok ⟨1, "", complaints⟩⟩ := by
  obtain ⟨message, hmessage⟩ :=
    Option.isSome_iff_exists.mp (Failure.isSome_fileMessage?_iff.mpr hfiles)
  rw [Choices.execute, h]
  dsimp only
  rw [hmessage]
  exact ⟨_, rfl⟩

theorem execute_of_not_ofFiles
    (h : ((c.request d).run parse stack d painter).result = .error failure)
    (hfiles : ¬ failure.IsOfFiles) : c.execute parse stack d painter =
      ⟨((c.request d).run parse stack d painter).disk, .error failure⟩ := by
  have hmessage : failure.fileMessage? = none := by
    simpa [← Failure.isSome_fileMessage?_iff] using hfiles
  rw [Choices.execute, h]
  dsimp only
  rw [hmessage]

end CommandLine

/-- A run that fails makes no file and changes none, and what led to a file still does. The command
line then prints nothing. It ends with code one if files are the reason, and breaks off for any
other. This holds whatever parses the files, and whatever the system refuses. -/
theorem Request.failed_run_keeps_files {parse : String → Node} {stack : Stack} {d : Disk}
    {painter : Option Painter} {r : Request} {failure : Failure}
    (h : (r.run parse stack d painter).result = .error failure) :
    let left := (r.run parse stack d painter).disk
    r.Fails parse stack d failure left ∧
    (∀ place content, left.tree.at? place = some (.file content) ↔
      d.tree.at? place = some (.file content)) ∧
    (∀ p content, d.HasFile p content → left.HasFile p content) ∧
    (∀ p content, d.read p = .ok content → left.read p = .ok content) ∧
    ∀ arguments c, CommandLine.read arguments = .ok (some c) → c.request d = r →
      let e := CommandLine.execute parse stack d painter arguments
      e.disk = left ∧
      (∀ t, e.result = .ok t → t.output = "") ∧
      (failure.IsOfFiles → ∃ t, e.result = .ok t ∧ t.exitCode = 1) ∧
      (¬ failure.IsOfFiles → e.result = .error failure) := by
  have hfails := fails_of_error h
  have hkept := hfails.keepsLeaves
  refine ⟨hfails, hkept.at?_file, ?_, fun p content => hkept.read,
    fun arguments c hread hrequest => ?_⟩
  · rintro p content ⟨place, hplace⟩
    exact ⟨place, hkept.locate_file p place content hplace⟩
  have hexecute : CommandLine.execute parse stack d painter arguments =
      c.execute parse stack d painter := by
    rw [CommandLine.execute, hread]
  subst hrequest
  dsimp only
  rw [hexecute]
  by_cases hfiles : failure.IsOfFiles
  · obtain ⟨complaints, he⟩ := CommandLine.execute_of_ofFiles h hfiles
    rw [he]
    refine ⟨rfl, fun t ht => ?_, fun _ => ⟨_, rfl, rfl⟩, fun hnot => absurd hfiles hnot⟩
    rw [← Except.ok.inj ht]
  · rw [CommandLine.execute_of_not_ofFiles h hfiles]
    exact ⟨rfl, by simp, fun hof => absurd hof hfiles, fun _ => rfl⟩

namespace Project

/-- A directory that is made before it turns out that the output path is one itself. -/
def upwards : Path := ⟨"/", ["new", ".."]⟩

def upwardsRequest : Request where
  path := importingRoot
  output := some upwards

def upwardsArguments : List String := ["-p", "/p", "-o", "/new/.."]

def upwardsChoices : CommandLine.Choices where
  path := some "/p"
  output := some "/new/.."

theorem request_upwardsChoices : upwardsChoices.request importing = upwardsRequest := by
  have hpath : Path.ofString "/p" = importingRoot := by decide +kernel
  have houtput : Path.ofString "/new/.." = upwards := by decide +kernel
  simp [CommandLine.Choices.request, upwardsChoices, upwardsRequest, hpath, houtput]

theorem run_upwards :
    let outcome := upwardsRequest.run TypeScript.parse .usual importing none
    outcome.result = .error (.access ⟨.isDirectory, upwards⟩) ∧
      outcome.disk.tree.at? ["new"] = some .empty := by
  obtain ⟨hresult, hdisk⟩ := @Request.run_of_analyze TypeScript.parse .usual importing none
    upwardsRequest upwards _ analyze_importing rfl
  dsimp only
  rw [hresult, hdisk]
  exact ⟨rfl, rfl⟩

theorem failed_run_keeps_files_upwards :
    let outcome := upwardsRequest.run TypeScript.parse .usual importing none
    outcome.result = .error (.access ⟨.isDirectory, upwards⟩) ∧
    outcome.disk.tree.at? ["new"] = some .empty ∧
    (∃ content, importing.read importingFirst = .ok content ∧
      outcome.disk.read importingFirst = .ok content) ∧
    ∃ t, (CommandLine.execute TypeScript.parse .usual importing none upwardsArguments).result =
        .ok t ∧ t.exitCode = 1 ∧ t.output = "" := by
  obtain ⟨hresult, hnew⟩ := run_upwards
  obtain ⟨-, -, -, hread, hexecute⟩ := Request.failed_run_keeps_files hresult
  have hchoices : CommandLine.read upwardsArguments = .ok (some upwardsChoices) := by
    decide +kernel
  obtain ⟨-, hsilent, hcode, -⟩ := hexecute _ _ hchoices request_upwardsChoices
  obtain ⟨t, ht, hone⟩ := hcode trivial
  exact ⟨hresult, hnew, ⟨_, rfl, hread _ _ rfl⟩, t, ht, hone, hsilent t ht⟩

end Project

end ModuleGraph
