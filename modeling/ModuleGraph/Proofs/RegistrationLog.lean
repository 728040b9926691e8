import Mathlib.Data.List.Induction
import ModuleGraph.Proofs.ProjectExtraction
import ModuleGraph.Proofs.Reachability

/-! What a graph and its log look like after any number of registrations. A name stands where it
was registered first and holds what was registered last, and each time that it is registered
again one warning names the file that declared it before. The log of a walk over the files of
a project has these warnings and no others. -/

namespace ModuleGraph

theorem keys_upsert_of_mem {α : Type} {key : String} (value : α) {entries : List (String × α)}
    (h : key ∈ entries.map Prod.fst) :
    (upsert key value entries).map Prod.fst = entries.map Prod.fst := by
  induction entries with
  | nil => cases h
  | cons entry rest ih =>
    obtain ⟨k, v⟩ := entry
    by_cases hk : k = key
    · simp [upsert, hk]
    · have hrest : key ∈ rest.map Prod.fst :=
        (List.mem_cons.mp h).resolve_left fun he => hk he.symm
      simp [upsert, hk, ih hrest]

namespace Declaration

/-- The declaration that a new one replaces: the last one before it that has its name. -/
def replaced? (before : List Declaration) (d : Declaration) : Option Declaration :=
  before.reverse.find? (fun e => e.record.name = d.record.name)

/-- The warning that a declaration replaces an earlier one. -/
def warning (d earlier : Declaration) : String :=
  s!"WARNING Module {d.record.name} in {d.file} replaces the one declared in {earlier.file}"

end Declaration

namespace ModuleMap

open Declaration (replaced? warning)

/-- All that registering declarations one after the other reports. -/
def registerAllNotices (m : ModuleMap) : List Declaration → List Notice
  | [] => []
  | d :: ds => m.registerNotices d ++ (m.register d).registerAllNotices ds

theorem registerAll_append (m : ModuleMap) (ds es : List Declaration) :
    m.registerAll (ds ++ es) = (m.registerAll ds).registerAll es :=
  List.foldl_append

theorem registerAllNotices_append (m : ModuleMap) (ds es : List Declaration) :
    m.registerAllNotices (ds ++ es) =
      m.registerAllNotices ds ++ (m.registerAll ds).registerAllNotices es := by
  induction ds generalizing m with
  | nil => rfl
  | cons d ds ih => rw [List.cons_append, registerAllNotices, ih, registerAllNotices,
      List.append_assoc, registerAll, registerAll, List.foldl_cons]

theorem names_register (m : ModuleMap) (d : Declaration) : (m.register d).names =
    if d.record.name ∈ m.names then m.names else m.names ++ [d.record.name] := by
  split
  · rename_i hmem
    exact keys_upsert_of_mem _ hmem
  · rename_i hnew
    have hentries : (m.register d).entries = m.entries ++ [(d.record.name, d.kept)] :=
      upsert_of_notMem hnew
    rw [names, hentries, List.map_append]
    rfl

theorem names_registerAll (ds : List Declaration) :
    (empty.registerAll ds).names = (ds.map (·.record.name)).eraseDups := by
  induction ds using List.reverseRecOn with
  | nil => rfl
  | append_singleton ds d ih =>
    have hlast : (empty.registerAll (ds ++ [d])).names =
        if d.record.name ∈ (empty.registerAll ds).names then (empty.registerAll ds).names
        else (empty.registerAll ds).names ++ [d.record.name] := by
      rw [registerAll_append]
      exact names_register _ d
    rw [hlast, ih, List.map_append, List.map_singleton, eraseDups_concat]
    simp only [List.mem_eraseDups]

theorem line_moduleReplaced (d earlier : Declaration) :
    (Notice.moduleReplaced d.record.name d.file (some earlier.file)).line = warning d earlier := by
  have hstart : "WARNING Module " = "WARNING" ++ " " ++ "Module " := by decide
  show "WARNING" ++ " " ++ ("Module " ++ d.record.name ++ " in " ++ d.file ++
      " replaces the one declared in " ++ earlier.file) =
    "WARNING Module " ++ d.record.name ++ " in " ++ d.file ++
      " replaces the one declared in " ++ earlier.file
  simp only [hstart, String.append_assoc]

theorem logLines_append (threshold : Level) (xs ys : List Notice) :
    logLines threshold (xs ++ ys) = logLines threshold xs ++ logLines threshold ys := by
  simp [logLines]

/-- One registration warns exactly if it replaces a module, and names the file of that module. -/
theorem logLines_registerNotices (ds : List Declaration) (d : Declaration) :
    logLines .warning ((empty.registerAll ds).registerNotices d) =
      ((replaced? ds d).map (warning d)).toList := by
  have hprevious : (empty.registerAll ds).find? d.record.name =
      (replaced? ds d).map Declaration.kept := by
    rw [find?_registerAll]
    exact Option.or_none
  unfold registerNotices
  rw [hprevious]
  cases replaced? ds d with
  | none => simp [logLines, Notice.isShown, Notice.level, Level.rank]
  | some earlier =>
    have hline := line_moduleReplaced d earlier
    simpa [logLines, Notice.isShown, Notice.level, Level.rank, Declaration.kept] using hline

theorem logLines_registerAllNotices (ds : List Declaration) :
    logLines .warning (empty.registerAllNotices ds) =
      ds.zipIdx.filterMap (fun (d, i) => (replaced? (ds.take i) d).map (warning d)) := by
  induction ds using List.reverseRecOn with
  | nil => rfl
  | append_singleton ds d ih =>
    have hbefore : ∀ p ∈ ds.zipIdx, (replaced? ((ds ++ [d]).take p.2) p.1).map (warning p.1) =
        (replaced? (ds.take p.2) p.1).map (warning p.1) := by
      intro p hp
      have hlt := (List.mem_zipIdx' hp).1
      rw [List.take_append_of_le_length (Nat.le_of_lt hlt)]
    rw [registerAllNotices_append, logLines_append, ih, List.zipIdx_append, List.filterMap_append,
      List.filterMap_congr hbefore]
    congr 1
    rw [registerAllNotices, registerAllNotices, List.append_nil, logLines_registerNotices]
    cases hd : replaced? ds d <;> simp [hd]

theorem replaced?_eq_none_iff {ds : List Declaration} {d : Declaration} :
    replaced? ds d = none ↔ d.record.name ∉ (empty.registerAll ds).names := by
  rw [names_registerAll, List.mem_eraseDups, replaced?, List.find?_eq_none]
  simp

/-- A registration makes a new name or gives a warning. -/
theorem length_eq_size_add (ds : List Declaration) : ds.length =
    (empty.registerAll ds).size + (logLines .warning (empty.registerAllNotices ds)).length := by
  have hsize : ∀ m : ModuleMap, m.size = m.names.length := fun m => (List.length_map _).symm
  induction ds using List.reverseRecOn with
  | nil => rfl
  | append_singleton ds d ih =>
    rw [registerAllNotices_append, logLines_append, registerAllNotices, registerAllNotices,
      List.append_nil, logLines_registerNotices, registerAll_append, hsize]
    rw [hsize] at ih
    have hnames := names_register (empty.registerAll ds) d
    have hlast : (empty.registerAll ds).registerAll [d] = (empty.registerAll ds).register d := rfl
    rw [hlast, hnames]
    simp only [List.length_append, List.length_singleton]
    cases hd : replaced? ds d with
    | none =>
      have hnew := replaced?_eq_none_iff.mp hd
      simp [hnew]
      omega
    | some earlier =>
      have hold : d.record.name ∈ (empty.registerAll ds).names := by
        by_contra hnew
        rw [replaced?_eq_none_iff.mpr hnew] at hd
        cases hd
      simp [hold]
      omega

/-- Registering declarations one after the other, into a graph that is empty. -/
theorem registerAll_empty (ds : List Declaration) :
    (empty.registerAll ds).names = (ds.map (·.record.name)).eraseDups ∧
    (∀ name, (empty.registerAll ds).find? name =
      (ds.reverse.find? (fun d => d.record.name = name)).map fun d =>
        { d.record with filePath := some d.file }) ∧
    logLines .warning (empty.registerAllNotices ds) =
      ds.zipIdx.filterMap (fun (d, i) =>
        ((ds.take i).reverse.find? (fun e => e.record.name = d.record.name)).map fun earlier =>
          s!"WARNING Module {d.record.name} in {d.file} replaces the one declared in {earlier.file}") ∧
    ds.length =
      (empty.registerAll ds).size + (logLines .warning (empty.registerAllNotices ds)).length := by
  refine ⟨names_registerAll ds, fun name => ?_, logLines_registerAllNotices ds,
    length_eq_size_add ds⟩
  rw [find?_registerAll]
  exact Option.or_none

end ModuleMap

theorem logLines_warning_eq_nil {notices : List Notice}
    (h : ∀ n ∈ notices, n.level = .debug) : logLines .warning notices = [] := by
  rw [logLines, List.map_eq_nil_iff, List.filter_eq_nil_iff]
  intro n hn
  simp [Notice.isShown, h n hn, Level.rank]

theorem level_importNotices (file : String) (k : Nat) (elements : List Node) :
    ∀ n ∈ importNotices file k elements, n.level = .debug := by
  induction elements generalizing k with
  | nil => simp [importNotices]
  | cons e elements ih =>
    rw [importNotices]
    split
    · exact ih k
    · exact List.forall_mem_cons.mpr ⟨rfl, ih (k + 1)⟩

/-- Reading a file never warns. -/
theorem level_readModule (root : Node) (file : String) (memory : Memory) :
    ∀ n ∈ (readModule root file memory).notices, n.level = .debug := by
  have hdecoys : ∀ n ∈ decoyNotices file root.topLevelClasses, n.level = .debug :=
    List.forall_mem_map.mpr fun _ _ => rfl
  unfold readModule
  dsimp only
  split
  · exact hdecoys
  · rename_i decl name _
    refine List.forall_mem_append.mpr ⟨hdecoys, ?_⟩
    cases decl.configuration? with
    | none => simp [emptyReading, Notice.level]
    | some config =>
      refine List.forall_mem_append.mpr ⟨level_importNotices file _ _, ?_⟩
      exact List.forall_mem_map.mpr fun _ _ => rfl

namespace Project

open ModuleMap (logLines_append)

variable {parse : String → Node} {stack : Stack} {d : Disk} {s : Settings} {root : Path}

theorem logLines_readFile {file : Path} {found : Option Declaration} (m : ModuleMap)
    (h : declared parse d file = .ok found) :
    logLines .warning (readFile parse d m file).result.2 =
      logLines .warning (m.registerAllNotices found.toList) := by
  unfold declared at h
  unfold readFile
  cases hsource : d.readLossy file with
  | error e => simp [hsource] at h
  | ok source =>
    simp only [hsource, Except.ok.injEq, Declaration.ofSource?] at h
    have hquiet := logLines_warning_eq_nil
      (level_readModule (parse source) file.text {})
    dsimp only
    generalize readModule (parse source) file.text {} = reading at h hquiet ⊢
    rw [Reporting.result, Reporting.run_bind]
    cases hread : reading.module with
    | none =>
      rw [hread] at h
      rw [← h]
      exact hquiet
    | some record =>
      rw [hread] at h
      have hnotices : m.registerAllNotices found.toList =
          m.registerNotices ⟨file.text, record⟩ := by
        rw [← h]
        exact List.append_nil _
      rw [hnotices]
      show logLines .warning (reading.notices ++ m.registerNotices ⟨file.text, record⟩) = _
      rw [logLines_append, hquiet, List.nil_append]

theorem logLines_foldlM_readFile {files : List Path} {found : List (Option Declaration)}
    (m : ModuleMap) (h : files.mapM (declared parse d) = .ok found) :
    logLines .warning (files.foldlM (readFile parse d) m).result.2 =
      logLines .warning (m.registerAllNotices (found.flatMap Option.toList)) := by
  induction files generalizing m found with
  | nil =>
    rw [List.mapM_nil, pure_eq_ok] at h
    rw [← h]
    rfl
  | cons file files ih =>
    rw [List.mapM_cons] at h
    obtain ⟨own, hown, h⟩ := bind_eq_ok.mp h
    obtain ⟨rest, hrest, h⟩ := bind_eq_ok.mp h
    rw [pure_eq_ok] at h
    have hfile : (readFile parse d m file).result.1 = .ok (m.registerAll own.toList) := by
      rw [result_readFile, hown]
      rfl
    have hlater := Reporting.Appends.foldlM (appends_readFile parse d) files
    rw [List.foldlM_cons, Reporting.result_bind_of_ok hfile (hlater _), logLines_append,
      logLines_readFile m hown, ih _ hrest, ← h, List.flatMap_cons,
      ModuleMap.registerAllNotices_append, logLines_append]

theorem notices_scan : (scan stack d s root).result.2 = [] := by
  unfold scan
  dsimp only
  split <;> rfl

/-- A walk that succeeds registers what its files declare, in order, and its log has the warnings
of these registrations and no others. -/
theorem extract_registers {m : ModuleMap}
    (h : (extract parse stack d s root).result.1 = .ok m) :
    ∃ files found, (moduleFiles stack d s root).result.1 = .ok files ∧
      files.mapM (declared parse d) = .ok found ∧
      m = ModuleMap.empty.registerAll (found.flatMap Option.toList) ∧
      logLines .warning (extract parse stack d s root).result.2 =
        logLines .warning (ModuleMap.empty.registerAllNotices (found.flatMap Option.toList)) := by
  obtain ⟨files, found, hfiles, hfound, rfl⟩ := result_extract_eq_ok_iff.mp h
  refine ⟨files, found, hfiles, hfound, rfl, ?_⟩
  have hscan := result_moduleFiles_eq_ok_iff.mp hfiles
  have hregistered : (files.foldlM (readFile parse d) .empty).result.1 =
      .ok (ModuleMap.empty.registerAll (found.flatMap Option.toList)) := by
    rw [result_foldlM_readFile, hfound]
    rfl
  have hscanned : ∀ m : ModuleMap, (finish ⟨files, none⟩ >>= fun _ =>
      Reporting.report [.scanned files.length m.size] >>= fun _ =>
        (pure m : Reporting ModuleMap)).Appends :=
    fun m => (appends_finish _).bind fun _ =>
      (Reporting.appends_report _).bind fun _ => Reporting.appends_pure m
  have hrest := (Reporting.Appends.foldlM (appends_readFile parse d) files .empty).bind hscanned
  rw [extract, Reporting.result_bind_of_ok hscan hrest,
    Reporting.result_bind_of_ok hregistered (hscanned _), notices_scan,
    List.nil_append, logLines_append, logLines_foldlM_readFile .empty hfound]
  exact List.append_nil _

end Project

end ModuleGraph
