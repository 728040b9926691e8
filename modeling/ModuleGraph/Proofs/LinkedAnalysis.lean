import ModuleGraph.Proofs.AnalysedGraph
import ModuleGraph.Proofs.LinkedWalk

/-! What a link to a directory changes for the analysis of a project: nothing, unless a walk takes
it for a file, and then the analysis fails to read it, or the walk cannot go as deep as the link. -/

namespace ModuleGraph.Project

variable {parse : String → Node} {stack : Stack} {d d' : Disk} {s : Settings} {root : Path}
variable {m : ModuleMap} {directory place : List String} {name : String}

theorem result_scan_eq_ok_iff {walk : Walk} : (scan stack d s root).result.1 = .ok walk ↔
    d.walk stack.levels s.excludes s.accepts root = walk ∧
      ((∃ suffix, s.suffix = .text suffix) ∨ walk.files = []) := by
  have hpure : ∀ found : Walk, (pure found : Reporting Walk).result.1 = .ok walk ↔ found = walk :=
    fun found => ⟨Except.ok.inj, congrArg _⟩
  unfold scan
  dsimp only
  split
  · rename_i suffix hsuffix
    rw [hpure]
    exact (and_iff_left (.inl ⟨suffix, hsuffix⟩)).symm
  · rename_i hnil htext
    rw [hpure]
    exact ⟨fun h => ⟨h, .inr (h ▸ hnil)⟩, And.left⟩
  · rename_i htext hcons
    refine iff_of_false (fun h => by cases h) ?_
    rintro ⟨rfl, ⟨suffix, hsuffix⟩ | hnil⟩
    · exact htext suffix hsuffix
    · exact hcons hnil

/-- The graph does not change as long as a walk finds the same files. -/
theorem result_extract_of_walk_eq
    (hwalk : d'.walk stack.levels s.excludes s.accepts root =
      d.walk stack.levels s.excludes s.accepts root)
    (hsame : ∀ file ∈ (d.walk stack.levels s.excludes s.accepts root).files, d.SameContent d' file)
    (h : (extract parse stack d s root).result.1 = .ok m) :
    (extract parse stack d' s root).result.1 = .ok m := by
  obtain ⟨files, found, hfiles, hfound, rfl⟩ := result_extract_eq_ok_iff.mp h
  obtain ⟨hfiles, hsuffix⟩ := result_scan_eq_ok_iff.mp (result_moduleFiles_eq_ok_iff.mp hfiles)
  rw [hfiles] at hsame
  refine result_extract_eq_ok_iff.mpr ⟨files, found, ?_, ?_, rfl⟩
  · rw [result_moduleFiles_eq_ok_iff, result_scan_eq_ok_iff, hwalk]
    exact ⟨hfiles, hsuffix⟩
  · exact mapM_eq_ok_of_imp (fun file hmem y => ((hsame file hmem).declared y).mpr) hfound

/-- A walk that takes something unreadable for a file ends the work. -/
theorem result_extract_of_walk_taken {link : Path} {e : AccessError} {files files' : List Path}
    (hwalk : d.walk stack.levels s.excludes s.accepts root = ⟨files, none⟩)
    (hwalk' : d'.walk stack.levels s.excludes s.accepts root = ⟨files', none⟩)
    (hmem : ∀ file, file ∈ files' ↔ file ∈ files ∨ file = link)
    (hsame : ∀ file ∈ files, d.SameContent d' file) (hlink : d'.read link = .error e)
    (h : (extract parse stack d s root).result.1 = .ok m) :
    (∀ m', (extract parse stack d' s root).result.1 ≠ .ok m') ∧
      ∀ suffix, s.suffix = .text suffix →
        (extract parse stack d' s root).result.1 = .error (.access e) := by
  have hdeclared : declared parse d' link = .error (.access e) := by
    rw [declared, Disk.readLossy, hlink]
    rfl
  have htaken : link ∈ files' := (hmem link).mpr (.inr rfl)
  constructor
  · intro m' h'
    obtain ⟨seen, found, hseen, hfound, -⟩ := result_extract_eq_ok_iff.mp h'
    obtain ⟨hseen, -⟩ := result_scan_eq_ok_iff.mp (result_moduleFiles_eq_ok_iff.mp hseen)
    obtain ⟨rfl, -⟩ := Walk.mk.inj (hwalk'.symm.trans hseen)
    obtain ⟨y, hy⟩ := exists_of_mapM_eq_ok hfound link htaken
    cases hdeclared.symm.trans hy
  · intro suffix hsuffix
    obtain ⟨seen, found, hseen, hfound, -⟩ := result_extract_eq_ok_iff.mp h
    obtain ⟨hseen, -⟩ := result_scan_eq_ok_iff.mp (result_moduleFiles_eq_ok_iff.mp hseen)
    obtain ⟨rfl, -⟩ := Walk.mk.inj (hwalk.symm.trans hseen)
    obtain ⟨pre, post, rfl, hpre⟩ := List.eq_append_cons_of_mem htaken
    -- Every file before the link is read as before.
    have hread : ∀ file ∈ pre, ∃ y, declared parse d' file = .ok y := by
      intro file hfile
      have hold : file ∈ files := by
        rcases (hmem file).mp (List.mem_append_left _ hfile) with hold | rfl
        · exact hold
        · exact absurd hfile hpre
      obtain ⟨y, hy⟩ := exists_of_mapM_eq_ok hfound file hold
      exact ⟨y, ((hsame file hold).declared y).mpr hy⟩
    have hfailed : (pre ++ link :: post).mapM (declared parse d') = .error (.access e) :=
      mapM_append_cons_eq_error hread hdeclared
    rw [result_extract, result_scan_eq_ok_iff.mpr ⟨hwalk', .inl ⟨suffix, hsuffix⟩⟩]
    show (pre ++ link :: post).mapM (declared parse d') >>= _ = _
    rw [hfailed]
    rfl

theorem walk_of_result_extract (h : (extract parse stack d s root).result.1 = .ok m) :
    ∃ files, d.walk stack.levels s.excludes s.accepts root = ⟨files, none⟩ := by
  obtain ⟨files, found, hfiles, -⟩ := result_extract_eq_ok_iff.mp h
  exact ⟨files, (result_scan_eq_ok_iff.mp (result_moduleFiles_eq_ok_iff.mp hfiles)).1⟩

section LinkAdded

variable (hproper : d.tree.Proper) (h : d.LinkAdded d' directory name)
  (hplace : d.tree.HasDirectory place) (hlinks : d.KeepsLinks d' place)

include hproper h hplace hlinks

theorem result_extract_of_apart (hapart : ¬ (FileTree.Entered s.excludes place directory ∧
      (s.accepts name = true ∨ place.length + stack.levels ≤ directory.length)))
    (hm : (extract parse stack d s (.ofPlace place)).result.1 = .ok m) :
    (extract parse stack d' s (.ofPlace place)).result.1 = .ok m :=
  result_extract_of_walk_eq (h.walk_eq hproper hplace hlinks hapart)
    (h.sameContent_file hproper hplace hlinks) hm

theorem result_extract_of_tooDeep (hentered : FileTree.Entered s.excludes place directory)
    (hlevels : place.length + stack.levels ≤ directory.length) (m : ModuleMap) :
    (extract parse stack d' s (.ofPlace place)).result.1 ≠ .ok m := by
  intro hm
  obtain ⟨files, hfiles⟩ := walk_of_result_extract hm
  exact h.walk_tooDeep hproper hplace hlinks hentered hlevels (congrArg Walk.failure hfiles)

theorem result_extract_of_taken (hentered : FileTree.Entered s.excludes place directory)
    (haccepted : s.accepts name = true) (hlevels : directory.length < place.length + stack.levels)
    {e : AccessError} (he : d'.read (.ofPlace (directory ++ [name])) = .error e)
    (hm : (extract parse stack d s (.ofPlace place)).result.1 = .ok m) :
    (∀ m', (extract parse stack d' s (.ofPlace place)).result.1 ≠ .ok m') ∧
      ∀ suffix, s.suffix = .text suffix →
        (extract parse stack d' s (.ofPlace place)).result.1 = .error (.access e) := by
  obtain ⟨files, hfiles⟩ := walk_of_result_extract hm
  obtain ⟨-, files', hfiles', hmem⟩ :=
    h.walk_taken hproper hplace hlinks hentered haccepted hlevels hfiles
  have hsame : ∀ file ∈ (d.walk stack.levels s.excludes s.accepts (.ofPlace place)).files,
      d.SameContent d' file := h.sameContent_file hproper hplace hlinks
  rw [hfiles] at hsame
  exact result_extract_of_walk_taken hfiles hfiles' hmem hsame he hm

theorem isDirectory_linkAdded (hthere : d.isDirectory (.ofPlace place) = .ok true) :
    d'.isDirectory (.ofPlace place) = .ok true := by
  obtain ⟨entries, hentries⟩ := hplace
  obtain ⟨hrefusal, hfinds⟩ :=
    h.finds_entry hproper hlinks ((congrArg _ (List.append_nil place)).trans hentries)
  rw [List.append_nil] at hrefusal hfinds
  rw [(h.looksAlike hrefusal hfinds).isDirectory, hthere]

theorem result_analyze_linkAdded {path : Path} {title : Option String} {project : Project}
    (hroot : d.resolve? path = some (.ofPlace place))
    (hroot' : d'.resolve? path = some (.ofPlace place))
    (hs : (Settings.load stack d (.ofPlace place)).result.1 = .ok s)
    (hproject : (analyze parse stack d path title).result.1 = .ok project) :
    ((analyze parse stack d' path title).result.1 = .ok project ↔
      ¬ (FileTree.Entered s.excludes place directory ∧
        (s.accepts name = true ∨ place.length + stack.levels ≤ directory.length))) ∧
    (FileTree.Entered s.excludes place directory → s.accepts name = true →
      directory.length < place.length + stack.levels → ∀ suffix, s.suffix = .text suffix →
        ∃ e, d'.read (.ofPlace (directory ++ [name])) = .error e ∧
          (analyze parse stack d' path title).result.1 = .error (.access e) ∧
          (d'.refusal .read (.ofPlace (directory ++ [name])) = none →
            e = ⟨.isDirectory, .ofPlace (directory ++ [name])⟩)) := by
  have hown : IsName Settings.fileName := ⟨by decide, by decide, by decide⟩
  have hpackage : IsName Settings.packageName := ⟨by decide, by decide, by decide⟩
  have hsame := h.sameContent_child hproper hplace hlinks hpackage
  have hload : (Settings.load stack d' (.ofPlace place)).result.1 = .ok s :=
    (Settings.result_load_congr (h.sameContent_child hproper hplace hlinks hown) hsame).trans hs
  obtain ⟨found, hfound, hthere⟩ := isDirectory_of_result_analyze hproject
  obtain rfl := Option.some.inj (hroot.symm.trans hfound)
  rw [result_analyze title hroot hthere] at hproject
  obtain ⟨found, hfound, hproject⟩ := bind_eq_ok.mp hproject
  obtain rfl := Except.ok.inj (hs.symm.trans hfound)
  obtain ⟨t, ht, hproject⟩ := bind_eq_ok.mp hproject
  have hall : s.exclude.all (·.isAtomic) = true := by
    by_contra hnot
    cases (if_neg hnot).symm.trans hproject
  obtain ⟨m, hm, rfl⟩ := map_eq_ok.mp ((if_pos hall).symm.trans hproject)
  have hanalysis : (analyze parse stack d' path title).result.1 =
      (extract parse stack d' s (.ofPlace place)).result.1.map fun modules =>
        ⟨t, .ofPlace place, modules.link⟩ := by
    rw [result_analyze title hroot' (isDirectory_linkAdded hproper h hplace hlinks hthere), hload,
      title_congr hsame, ht]
    exact if_pos hall
  rw [hanalysis]
  obtain ⟨e, he, hread⟩ := Disk.read_of_isDirectory h.leads
  have htaken := fun hentered haccepted hlevels =>
    result_extract_of_taken hproper h hplace hlinks hentered haccepted hlevels he hm
  refine ⟨⟨?_, fun hapart => ?_⟩,
    fun hentered haccepted hlevels suffix hsuffix => ⟨e, he, ?_, hread⟩⟩
  · rintro hsucceeded ⟨hentered, hstops⟩
    obtain ⟨m', hm', -⟩ := map_eq_ok.mp hsucceeded
    rcases Nat.lt_or_ge directory.length (place.length + stack.levels) with hlevels | hlevels
    · have haccepted := hstops.resolve_right (Nat.not_le.mpr hlevels)
      exact (htaken hentered haccepted hlevels).1 m' hm'
    · exact result_extract_of_tooDeep hproper h hplace hlinks hentered hlevels m' hm'
  · rw [result_extract_of_apart hproper h hplace hlinks hapart hm]
    rfl
  · rw [(htaken hentered haccepted hlevels).2 suffix hsuffix]
    rfl

/-- A link to a directory that is added to a project changes neither what a walk finds nor the
graph, unless the walk comes to the link and its name has the suffix, or the walk cannot go as deep.
In the first case the walk finds it besides the files that it found, and the analysis fails because
it cannot read it. -/
theorem analyze_linkAdded :
    (∀ levels excluded accepted, ¬ (FileTree.Entered excluded place directory ∧
        (accepted name = true ∨ place.length + levels ≤ directory.length)) →
      d'.walk levels excluded accepted (.ofPlace place) =
        d.walk levels excluded accepted (.ofPlace place)) ∧
    (∀ levels excluded accepted files, FileTree.Entered excluded place directory →
      accepted name = true → directory.length < place.length + levels →
      d.walk levels excluded accepted (.ofPlace place) = ⟨files, none⟩ →
      .ofPlace (directory ++ [name]) ∉ files ∧
        ∃ files', d'.walk levels excluded accepted (.ofPlace place) = ⟨files', none⟩ ∧
          ∀ file, file ∈ files' ↔ file ∈ files ∨ file = .ofPlace (directory ++ [name])) ∧
    ∀ parse stack path title s project, d.resolve? path = some (.ofPlace place) →
      d'.resolve? path = some (.ofPlace place) →
      (Settings.load stack d (.ofPlace place)).result.1 = .ok s →
      (analyze parse stack d path title).result.1 = .ok project →
      ((analyze parse stack d' path title).result.1 = .ok project ↔
        ¬ (FileTree.Entered s.excludes place directory ∧
          (s.accepts name = true ∨ place.length + stack.levels ≤ directory.length))) ∧
      (FileTree.Entered s.excludes place directory → s.accepts name = true →
        directory.length < place.length + stack.levels → ∀ suffix, s.suffix = .text suffix →
          ∃ e, d'.read (.ofPlace (directory ++ [name])) = .error e ∧
            (analyze parse stack d' path title).result.1 = .error (.access e) ∧
            (d'.refusal .read (.ofPlace (directory ++ [name])) = none →
              e = ⟨.isDirectory, .ofPlace (directory ++ [name])⟩)) :=
  ⟨fun _ _ _ => h.walk_eq hproper hplace hlinks,
    fun _ _ _ _ hentered haccepted hlevels =>
      h.walk_taken hproper hplace hlinks hentered haccepted hlevels,
    fun _ _ _ _ _ _ => result_analyze_linkAdded hproper h hplace hlinks⟩

end LinkAdded

/-- The project `importing` with a link in it to the project itself. -/
def selfLinked (name : String) : Disk :=
  { importing with tree := importing.tree.put ["p", name] (.link ".") }

theorem proper_importing : importing.tree.Proper := by
  have hfile : ∀ content, (FileTree.file content).Proper := fun content =>
    FileTree.proper_of_leaf (fun _ => rfl) (by simp)
  have hname : ∀ name ∈ ["p", "a.module.ts", "b.module.ts"], IsName name := by
    intro name hname
    constructor <;> revert name <;> decide
  have hproject : ∀ first second, (FileTree.directory [("a.module.ts", .file first),
      ("b.module.ts", .file second)]).Proper := fun first second =>
    FileTree.proper_directory (by simp) (by simp [hfile, hname])
  exact FileTree.proper_directory (by simp) (by simp [hproject, hname])

theorem keepsLinks_importing (d' : Disk) : importing.KeepsLinks d' ["p"] := by
  intro below text hlink
  exfalso
  rw [FileTree.at?_append] at hlink
  obtain ⟨project, hproject, hbelow⟩ := Option.bind_eq_some_iff.mp hlink
  obtain rfl := Option.some.inj hproject
  cases below with
  | nil => cases hbelow
  | cons name rest =>
    obtain ⟨next, hnext, hrest⟩ := Option.bind_eq_some_iff.mp hbelow
    have hfile : ∃ content, next = .file content := by
      have hmem := mem_of_lookup hnext
      simp only [List.mem_cons, Prod.mk.injEq, List.not_mem_nil, or_false] at hmem
      rcases hmem with ⟨-, rfl⟩ | ⟨-, rfl⟩ <;> exact ⟨_, rfl⟩
    obtain ⟨content, rfl⟩ := hfile
    cases rest <;> cases hrest

theorem linkAdded_lib : importing.LinkAdded (selfLinked "lib") ["p"] "lib" where
  here := rfl
  refusal := fun _ _ _ => rfl
  put := ⟨".", rfl⟩
  inside := ⟨_, rfl⟩
  free := rfl
  isName := ⟨by decide, by decide, by decide⟩
  absent := by decide +kernel
  leads := by decide +kernel
  seen := by decide +kernel

theorem linkAdded_libModule :
    importing.LinkAdded (selfLinked "lib.module.ts") ["p"] "lib.module.ts" where
  here := rfl
  refusal := fun _ _ _ => rfl
  put := ⟨".", rfl⟩
  inside := ⟨_, rfl⟩
  free := rfl
  isName := ⟨by decide, by decide, by decide⟩
  absent := by decide +kernel
  leads := by decide +kernel
  seen := by decide +kernel

theorem load_importing : (Settings.load .usual importing (.ofPlace ["p"])).result.1 = .ok {} := by
  rfl

/-- The analysis of a project fails once a link in it has the name of a module file. -/
theorem analyze_libModule :
    importing.LinkAdded (selfLinked "lib.module.ts") ["p"] "lib.module.ts" ∧
    (∃ project,
      (analyze TypeScript.parse .usual importing importingRoot none).result.1 = .ok project) ∧
    (analyze TypeScript.parse .usual (selfLinked "lib.module.ts") importingRoot none).result.1 =
      .error (.access ⟨.isDirectory, ⟨"/", ["p", "lib.module.ts"]⟩⟩) := by
  have hroot : importing.resolve? importingRoot = some (.ofPlace ["p"]) := by decide +kernel
  have hroot' : (selfLinked "lib.module.ts").resolve? importingRoot = some (.ofPlace ["p"]) := by
    decide +kernel
  obtain ⟨-, htaken⟩ := result_analyze_linkAdded proper_importing linkAdded_libModule ⟨_, rfl⟩
    (keepsLinks_importing _) hroot hroot' load_importing analyze_importing
  obtain ⟨e, -, hfailed, he⟩ :=
    htaken ⟨[], rfl, by simp⟩ (by decide +kernel) (by decide) moduleSuffix rfl
  exact ⟨linkAdded_libModule, ⟨_, analyze_importing⟩, he rfl ▸ hfailed⟩

theorem analyze_linkAdded_lib :
    importing.LinkAdded (selfLinked "lib") ["p"] "lib" ∧
    importing.KeepsLinks (selfLinked "lib") ["p"] ∧
    ∃ project, (analyze TypeScript.parse .usual importing importingRoot none).result.1 =
        .ok project ∧
      (analyze TypeScript.parse .usual (selfLinked "lib") importingRoot none).result.1 =
        .ok project := by
  have hroot : importing.resolve? importingRoot = some (.ofPlace ["p"]) := by decide +kernel
  have hroot' : (selfLinked "lib").resolve? importingRoot = some (.ofPlace ["p"]) := by
    decide +kernel
  obtain ⟨-, -, hanalysis⟩ := analyze_linkAdded proper_importing linkAdded_lib ⟨_, rfl⟩
    (keepsLinks_importing (selfLinked "lib"))
  refine ⟨linkAdded_lib, keepsLinks_importing _, _, analyze_importing, ?_⟩
  refine (hanalysis TypeScript.parse .usual importingRoot none {} _ hroot hroot' load_importing
    analyze_importing).1.mpr ?_
  rintro ⟨-, haccepted | hlevels⟩
  · exact absurd haccepted (by decide +kernel)
  · exact absurd hlevels (by decide)

end ModuleGraph.Project
