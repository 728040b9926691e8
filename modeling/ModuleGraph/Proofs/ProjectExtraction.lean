import ModuleGraph.Proofs.Registration
import ModuleGraph.Proofs.Reporting

/-! Extracting the modules of a project registers what its files declare, file by file in the
order of the walk. A file is read for itself, so what it declares depends on no other file. All of
this holds whatever parses the files. -/

namespace ModuleGraph

/-- What the text of a file declares. -/
def Declaration.ofSource? (parse : String → Node) (file source : String) : Option Declaration :=
  (readModule (parse source) file {}).module.map (⟨file, ·⟩)

namespace Project

/-- What a file declares, unless it cannot be read. -/
def declared (parse : String → Node) (d : Disk) (file : Path) :
    Except Failure (Option Declaration) :=
  match d.readLossy file with
  | .ok source => .ok (Declaration.ofSource? parse file.text source)
  | .error e => .error (.access e)

variable {parse : String → Node} {stack : Stack} {d : Disk} {s : Settings} {root : Path}

theorem result_readFile (m : ModuleMap) (file : Path) :
    (readFile parse d m file).result.1 =
      (declared parse d file).map (fun found => m.registerAll found.toList) := by
  unfold readFile declared
  cases d.readLossy file with
  | error e => rfl
  | ok source =>
    simp only [Declaration.ofSource?, Except.map]
    rw [Reporting.result, Reporting.run_bind]
    cases (readModule (parse source) file.text {}).module with
    | none => rfl
    | some record => rfl

theorem result_foldlM_readFile (files : List Path) (m : ModuleMap) :
    (files.foldlM (readFile parse d) m).result.1 =
      (files.mapM (declared parse d)).map
        (fun found => m.registerAll (found.flatMap Option.toList)) := by
  induction files generalizing m with
  | nil => rfl
  | cons file files ih =>
    have hrest : ∀ m, (files.foldlM (readFile parse d) m).Appends :=
      Reporting.Appends.foldlM (appends_readFile parse d) files
    rw [List.foldlM_cons, Reporting.fst_result_bind hrest, result_readFile, List.mapM_cons]
    cases declared parse d file with
    | error e => rfl
    | ok found =>
      simp only [Except.map, bind, Except.bind, ih]
      cases files.mapM (declared parse d) with
      | error e => rfl
      | ok rest => simp [ModuleMap.registerAll, pure, Except.pure]

theorem result_finish_eq_ok_iff {walk : Walk} :
    (finish walk).result.1 = .ok () ↔ walk.failure = none := by
  unfold finish
  cases walk.failure with
  | none => exact iff_of_true rfl rfl
  | some e => exact iff_of_false (fun h => by cases h) (fun h => by cases h)

theorem result_moduleFiles_eq_ok_iff {files : List Path} :
    (moduleFiles stack d s root).result.1 = .ok files ↔
      (scan stack d s root).result.1 = .ok ⟨files, none⟩ := by
  have hfinished : ∀ walk : Walk, (finish walk >>= fun _ =>
      (pure walk.files : Reporting (List Path))).Appends :=
    fun walk => (appends_finish walk).bind fun _ => Reporting.appends_pure _
  rw [moduleFiles, Reporting.fst_result_bind hfinished, bind_eq_ok]
  constructor
  · rintro ⟨⟨found, failure⟩, hscan, h⟩
    rw [Reporting.fst_result_bind fun _ => Reporting.appends_pure _] at h
    obtain ⟨⟨⟩, hfinish, hfiles⟩ := bind_eq_ok.mp h
    obtain rfl : failure = none := result_finish_eq_ok_iff.mp hfinish
    obtain rfl : found = files := Except.ok.inj hfiles
    exact hscan
  · exact fun hscan => ⟨_, hscan, rfl⟩

theorem result_extract :
    (extract parse stack d s root).result.1 = (scan stack d s root).result.1 >>= fun walk =>
      walk.files.mapM (declared parse d) >>= fun found =>
        (finish walk).result.1.map fun _ =>
          ModuleMap.empty.registerAll (found.flatMap Option.toList) := by
  have hscanned : ∀ (files : List Path) (m : ModuleMap),
      (Reporting.report [.scanned files.length m.size] >>= fun _ =>
        (pure m : Reporting ModuleMap)).Appends :=
    fun _ m => (Reporting.appends_report _).bind fun _ => Reporting.appends_pure m
  have hfinished := fun (walk : Walk) (m : ModuleMap) =>
    (appends_finish walk).bind fun _ => hscanned walk.files m
  have hread := fun walk : Walk =>
    (Reporting.Appends.foldlM (appends_readFile parse d) walk.files .empty).bind (hfinished walk)
  rw [extract, Reporting.fst_result_bind hread]
  congr 1
  funext walk
  rw [Reporting.fst_result_bind (hfinished walk), result_foldlM_readFile]
  cases walk.files.mapM (declared parse d) with
  | error e => rfl
  | ok found =>
    show ((finish walk) >>= _).result.1 = (finish walk).result.1.map _
    rw [Reporting.fst_result_bind fun _ => hscanned walk.files _]
    cases (finish walk).result.1 <;> rfl

/-- The graph of a project is what the files of the walk declare, if the walk gets to its end. -/
theorem result_extract_eq_ok_iff {m : ModuleMap} :
    (extract parse stack d s root).result.1 = .ok m ↔
      ∃ files found, (moduleFiles stack d s root).result.1 = .ok files ∧
        files.mapM (declared parse d) = .ok found ∧
        m = ModuleMap.empty.registerAll (found.flatMap Option.toList) := by
  rw [result_extract, bind_eq_ok]
  constructor
  · rintro ⟨⟨files, failure⟩, hscan, h⟩
    obtain ⟨found, hfound, h⟩ := bind_eq_ok.mp h
    obtain ⟨⟨⟩, hfinish, hm⟩ := map_eq_ok.mp h
    obtain rfl : failure = none := result_finish_eq_ok_iff.mp hfinish
    exact ⟨files, found, result_moduleFiles_eq_ok_iff.mpr hscan, hfound, hm.symm⟩
  · rintro ⟨files, found, hfiles, hfound, rfl⟩
    exact ⟨_, result_moduleFiles_eq_ok_iff.mp hfiles, bind_eq_ok.mpr ⟨found, hfound, rfl⟩⟩

end Project

end ModuleGraph
