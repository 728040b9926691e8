import ModuleGraph.Proofs.InterruptedWalk
import ModuleGraph.Proofs.ListingOrder
import ModuleGraph.Proofs.WalkStop
import ModuleGraph.Stack

/-! What a walk finds: the entries below its start that are no directories and that no excluded
directory lies above, in the order of the names on the way to them, up to the place where the walk
stops. -/

namespace ModuleGraph.Disk

variable {d : Disk} {p : Path} {levels : Nat} {excluded accepted : String → Bool}
variable {entries : List (String × FileTree)}

theorem walk_of_readDirectory (h : d.readDirectory p = .ok entries) :
    d.walk levels excluded accepted p =
      .along p (d.visit levels excluded accepted p) (FileTree.walk excluded entries) := by
  rw [walk, h]

theorem walk_of_sameLookups {d' : Disk} (hproper : d.tree.Proper) (hproper' : d'.tree.Proper)
    (hsame : d.SameLookups d') (hstart : d.readDirectory p = .ok entries) :
    d'.walk levels excluded accepted p = d.walk levels excluded accepted p := by
  obtain ⟨hgranted, found, hlocate⟩ := readDirectory_eq_ok_iff.mp hstart
  have hfound : d.tree.at? found = some (.directory entries) := holds_goWithin hlocate
  obtain ⟨entries', hlocate'⟩ :
      ∃ entries', d'.locate p = .ok (.node found (.directory entries')) := by
    rcases hsame.locate p with he | ⟨place, inside, inside', he, he'⟩
    · exact ⟨entries, he ▸ hlocate⟩
    · rw [hlocate, Except.ok.injEq, Located.node.injEq] at he
      exact ⟨inside', he.1 ▸ he'⟩
  have hfound' : d'.tree.at? found = some (.directory entries') := holds_goWithin hlocate'
  have hstart' : d'.readDirectory p = .ok entries' :=
    readDirectory_eq_ok_iff.mpr ⟨hsame.refusal ▸ hgranted, found, hlocate'⟩
  have halike : ∀ place, FileTree.Alike ((FileTree.directory entries).at? place)
      ((FileTree.directory entries').at? place) := by
    intro place
    have := hsame.alike (found ++ place)
    rwa [FileTree.at?_append, FileTree.at?_append, hfound, hfound'] at this
  have hvisit : d'.visit levels excluded accepted p = d.visit levels excluded accepted p :=
    funext fun place => hsame.visit levels excluded accepted place
  rw [walk_of_readDirectory hstart, walk_of_readDirectory hstart', hvisit,
    FileTree.walk_of_alike (proper_of_readDirectory hproper hstart)
      (proper_of_readDirectory hproper' hstart') halike]

/-- What a directory is called decides only whether it is listed. -/
theorem visit_of_visit_all {place : List String} {isFile : Bool}
    (h : d.visit levels (fun _ => false) accepted p place = .ok isFile) :
    d.visit levels excluded accepted p place = .ok isFile := by
  rw [visit] at h ⊢
  split at h
  · cases h
  rename_i hlevels
  rw [if_neg hlevels]
  split at h
  · cases h
  · exact h
  · rename_i hdirectory
    simp only [Bool.false_eq_true, if_false] at h
    split at h
    · cases h
    · rename_i hlist
      obtain rfl := Except.ok.inj h
      exact ite_self _

theorem walk_exclude {exclude : List String} {all : List Path}
    (hproper : d.tree.Proper) (hstart : d.readDirectory p = .ok entries)
    (hall : d.walk levels (fun _ => false) accepted p = ⟨all, none⟩) :
    d.walk levels exclude.contains accepted p =
      ⟨all.filter (fun file => (file.parts.drop p.parts.length).dropLast.all (· ∉ exclude)),
        none⟩ := by
  let isFile (place : List String) : Bool :=
    (d.visit levels (fun _ => false) accepted p place).toOption.getD false
  have hok : ∀ place ∈ FileTree.walk (fun _ => false) entries,
      d.visit levels (fun _ => false) accepted p place = .ok (isFile place) := by
    intro place hplace
    rw [walk_of_readDirectory hstart] at hall
    obtain ⟨answer, hanswer⟩ :=
      Walk.failure_along_eq_none_iff.mp (congrArg Walk.failure hall) place hplace
    simp [isFile, hanswer, Except.toOption]
  have hplaces : FileTree.walk exclude.contains entries = _ :=
    FileTree.walk_eq_filter (proper_of_readDirectory hproper hstart)
  have hless : ∀ place ∈ FileTree.walk exclude.contains entries,
      d.visit levels exclude.contains accepted p place = .ok (isFile place) := by
    intro place hplace
    rw [hplaces] at hplace
    exact visit_of_visit_all (hok place (List.mem_of_mem_filter hplace))
  rw [walk_of_readDirectory hstart, Walk.along_of_ok hok, Walk.mk.injEq] at hall
  rw [walk_of_readDirectory hstart, Walk.along_of_ok hless, ← hall.1, hplaces, List.filter_map,
    List.filter_filter, List.filter_filter]
  congr 2
  refine List.filter_congr fun place _ => ?_
  simp [Path.below, List.contains_eq_mem, Bool.and_comm]

section Stops

variable (hproper : d.tree.Proper) (hstart : d.readDirectory p = .ok entries)
include hproper hstart

theorem pairwise_walk_entries (excluded : String → Bool) :
    (FileTree.walk excluded entries).Pairwise (· < ·) :=
  FileTree.pairwise_walk_of_proper (proper_of_readDirectory hproper hstart)

/-- The places where a walk stops are those where a visit fails. -/
theorem stopsAt_iff (accepted : String → Bool) {place : List String} {e : WalkEnd} :
    d.StopsAt levels excluded p entries place e ↔ place ∈ FileTree.walk excluded entries ∧
      d.visit levels excluded accepted p place = .error e := by
  rw [FileTree.mem_walk (proper_of_readDirectory hproper hstart)]
  constructor
  · exact fun h => ⟨h.visits, (visit_eq_error_iff hproper hstart h.visits).mpr h⟩
  · exact fun ⟨hvisits, h⟩ => (visit_eq_error_iff hproper hstart hvisits).mp h

theorem mem_files_walk_iff {file : Path} :
    file ∈ (d.walk levels excluded accepted p).files ↔ ∃ place, file = p.below place ∧
      (FileTree.directory entries).Visits excluded place ∧
      ¬ (FileTree.directory entries).HasDirectory place ∧ accepted file.name = true ∧
      ∀ other e, d.StopsAt levels excluded p entries other e → place < other := by
  have hwell := proper_of_readDirectory hproper hstart
  rw [walk_of_readDirectory hstart, Walk.mem_along_iff (pairwise_walk_entries hproper hstart _)]
  simp only [FileTree.mem_walk hwell]
  refine exists_congr fun place => ?_
  constructor
  · rintro ⟨hvisits, rfl, hvisit, hbefore⟩
    obtain ⟨-, hleaf, hname⟩ := (visit_eq_true_iff hproper hstart hvisits).mp hvisit
    refine ⟨rfl, hvisits, hleaf, hname, fun other e h => ?_⟩
    exact hbefore other h.visits e ((visit_eq_error_iff hproper hstart h.visits).mpr h)
  · rintro ⟨rfl, hvisits, hleaf, hname, hbefore⟩
    refine ⟨hvisits, rfl, (visit_eq_true_iff hproper hstart hvisits).mpr
      ⟨fun e h => lt_irrefl _ (hbefore place e h), hleaf, hname⟩, fun other hother e he => ?_⟩
    exact hbefore other e ((visit_eq_error_iff hproper hstart hother).mp he)

theorem failure_walk_eq_some_iff {e : WalkEnd} :
    (d.walk levels excluded accepted p).failure = some e ↔
      ∃ place, d.StopsAt levels excluded p entries place e ∧
        ∀ other e', d.StopsAt levels excluded p entries other e' → ¬ other < place := by
  have hstops : ∀ place e, d.StopsAt levels excluded p entries place e ↔ _ := fun _ _ =>
    stopsAt_iff hproper hstart accepted
  rw [walk_of_readDirectory hstart,
    Walk.failure_along_eq_some_iff (pairwise_walk_entries hproper hstart _)]
  simp only [hstops, and_assoc, and_imp]
  exact exists_congr fun place => and_congr_right fun _ => and_congr_right fun _ =>
    ⟨fun h other e' hother he' => h other hother e' he', fun h other hother e' he' =>
      h other e' hother he'⟩

end Stops

/-- A walk finds exactly the entries that are no directories, whose names have the suffix and
whose ancestors below the start are directories with names outside the exclude list, each once
and in lexicographic order of the names on the way to them, up to the first place where it stops.
Excluding directories amounts to leaving out what lies below them, and the order in which
directories list their entries does not matter. -/
theorem walk_exact (hproper : d.tree.Proper) (hstart : d.readDirectory p = .ok entries)
    (levels : Nat) (exclude : List String) (suffix : String) :
    ∃ w, d.walk levels exclude.contains (nameEndsWith suffix) p = w ∧
      (w.files.map (·.parts)).Pairwise (· < ·) ∧
      (∀ file, file ∈ w.files ↔ ∃ place, file = p.below place ∧
        (FileTree.directory entries).Visits exclude.contains place ∧
        ¬ (FileTree.directory entries).HasDirectory place ∧
        suffix.toList <:+ file.name.toList ∧
        ∀ other e, d.StopsAt levels exclude.contains p entries other e → place < other) ∧
      (∀ e, w.failure = some e ↔ ∃ place, d.StopsAt levels exclude.contains p entries place e ∧
        ∀ other e', d.StopsAt levels exclude.contains p entries other e' → ¬ other < place) ∧
      (∀ place q, d.StopsAt levels exclude.contains p entries place (.unseen ⟨.nameTooLong, q⟩) →
        ∃ target, (FileTree.directory entries).at? place = some (.link target)) ∧
      (∀ all, d.walk levels (fun _ => false) (nameEndsWith suffix) p = ⟨all, none⟩ →
        w = ⟨all.filter (fun file => (file.parts.drop p.parts.length).dropLast.all (· ∉ exclude)),
          none⟩) ∧
      ∀ d', d.SameLookups d' → d'.tree.Proper →
        d'.walk levels exclude.contains (nameEndsWith suffix) p = w := by
  have hname : ∀ file : Path, nameEndsWith suffix file.name = true ↔
      suffix.toList <:+ file.name.toList := fun _ => List.isSuffixOf_iff_suffix
  refine ⟨_, rfl, ?_, fun file => ?_, fun e => failure_walk_eq_some_iff hproper hstart,
    fun place q h => h.isLink hproper hstart h.visits,
    fun all hall => walk_exclude hproper hstart hall,
    fun d' hsame hproper' => walk_of_sameLookups hproper hproper' hsame hstart⟩
  · rw [walk_of_readDirectory hstart]
    exact List.pairwise_map.mpr (Walk.pairwise_files_along (pairwise_walk_entries hproper hstart _))
  · rw [mem_files_walk_iff hproper hstart]
    simp only [hname]

/-- It takes 256 bytes, one more than a file name may. -/
def overlongName : String := String.ofList (List.replicate 64 '😀')

def stoppedEntries (target : String) : List (String × FileTree) :=
  [("z.module.ts", .file []), ("m", .link target),
    ("lib", .directory [("loop", .link ".."), ("c.module.ts", .file [])]),
    ("skip", .directory [("d.module.ts", .file [])])]

/-- A project with a link round in a circle and a link to `target`. -/
def stoppedDisk (target : String) : Disk where
  tree := .directory [("project", .directory (stoppedEntries target))]
  here := []

def stoppedRoot : Path := ⟨"/", ["project"]⟩

theorem walk_stoppedEntries (target : String) {exclude : List String} (hlib : "lib" ∉ exclude) :
    FileTree.walk exclude.contains (stoppedEntries target) =
      [["lib"], ["lib", "c.module.ts"], ["lib", "loop"], ["m"], ["skip"]] ++
        (if "skip" ∈ exclude then [] else [["skip", "d.module.ts"]]) ++ [["z.module.ts"]] := by
  have hinside : byName [("loop", [["loop"]]), ("c.module.ts", [["c.module.ts"]])] =
      [("c.module.ts", [["c.module.ts"]]), ("loop", [["loop"]])] :=
    FileTree.byName_eq (by decide) (by decide)
  have hskip : byName [("d.module.ts", [["d.module.ts"]])] = [("d.module.ts", [["d.module.ts"]])] :=
    FileTree.byName_eq (by decide) (by decide)
  have hproject : ∀ skipped : List (List String),
      byName [("z.module.ts", [["z.module.ts"]]), ("m", [["m"]]),
        ("lib", [["lib"], ["lib", "c.module.ts"], ["lib", "loop"]]), ("skip", skipped)] =
      [("lib", [["lib"], ["lib", "c.module.ts"], ["lib", "loop"]]), ("m", [["m"]]),
        ("skip", skipped), ("z.module.ts", [["z.module.ts"]])] := fun skipped =>
    FileTree.byName_eq (by simp [List.cons_perm_iff_perm_erase])
      (List.pairwise_map.mp (show ["lib", "m", "skip", "z.module.ts"].Pairwise (· < ·) by decide))
  simp [FileTree.walk, stoppedEntries, FileTree.walkEntries, FileTree.walkEntry, hlib, hinside, hskip,
    hproject]

theorem proper_stoppedDisk (target : String) : (stoppedDisk target).tree.Proper := by
  have hfile : (FileTree.file []).Proper := FileTree.proper_of_leaf (fun _ => rfl) (by simp)
  have hlink : ∀ target, (FileTree.link target).Proper := fun target =>
    FileTree.proper_of_leaf (fun _ => rfl) (by simp)
  have hname : ∀ name ∈ ["project", "z.module.ts", "m", "lib", "loop", "c.module.ts", "skip",
      "d.module.ts"], IsName name := by
    intro name hname
    constructor <;> revert name <;> decide
  have hlib : (FileTree.directory [("loop", .link ".."), ("c.module.ts", .file [])]).Proper :=
    FileTree.proper_directory (by decide) (by simp [hfile, hlink, hname])
  have hskip : (FileTree.directory [("d.module.ts", .file [])]).Proper :=
    FileTree.proper_directory (by decide) (by simp [hfile, hname])
  have hproject : (FileTree.directory (stoppedEntries target)).Proper :=
    FileTree.proper_directory (by simp [stoppedEntries])
      (by simp [stoppedEntries, hfile, hlink, hlib, hskip, hname])
  exact FileTree.proper_directory (by simp) (by simp [hproject, hname])

theorem readDirectory_stoppedDisk (target : String) :
    (stoppedDisk target).readDirectory stoppedRoot = .ok (stoppedEntries target) := by
  rfl

theorem slashed_of_notMem {cs : List Char} (h : '/' ∉ cs) : slashed cs = [cs] := by
  induction cs with
  | nil => rfl
  | cons c cs ih =>
    rw [List.mem_cons, not_or] at h
    rw [slashed, if_neg (Ne.symm h.1), ih h.2]

theorem isDirectory_stoppedDisk {target : String} (hpieces : pathPieces target = [target])
    (hlong : ∀ t follow again start rest,
      goAlong t follow again start (target :: rest) = .error .nameTooLong) :
    (stoppedDisk target).isDirectory ⟨"/", ["project", "m"]⟩ =
      .error ⟨.nameTooLong, ⟨"/", ["project", "m"]⟩⟩ := by
  have hproject : IsName "project" := ⟨by decide, by decide, by decide⟩
  have hm : IsName "m" := ⟨by decide, by decide, by decide⟩
  refine isDirectory_eq_error_iff.mpr (node?_eq_error_iff.mpr (.inr ⟨rfl, ?_, rfl⟩))
  have hlooks : Access.look.follows = true := rfl
  rw [reach, if_pos hlooks, locate, linkLimit, goWithin]
  show goAlong _ _ _ [] ["project", "m"] = _
  rw [goAlong_name hproject]
  show goAlong _ _ _ ["project"] ["m"] = _
  rw [goAlong_name hm]
  show goWithin _ _ _ (linkStart ["project"] target).1 ((linkStart ["project"] target).2 ++ []) = _
  rw [linkStart, hpieces]
  exact hlong _ _ _ _ _

theorem isDirectory_overlongLink :
    (stoppedDisk overlongName).isDirectory ⟨"/", ["project", "m"]⟩ =
      .error ⟨.nameTooLong, ⟨"/", ["project", "m"]⟩⟩ := by
  have hchars : overlongName.toList = List.replicate 64 '😀' := String.toList_ofList
  have hpart : Path.isPart overlongName = true ∧ overlongName ≠ ".." := by
    simp [Path.isPart, ← String.toList_inj, hchars, List.replicate_succ]
  have hlong : nameLimit < overlongName.utf8ByteSize := by decide +kernel
  refine isDirectory_stoppedDisk ?_ fun _ _ _ _ _ => goAlong_overlong hpart.1 hpart.2 hlong
  rw [pathPieces, hchars,
    slashed_of_notMem fun h => absurd (List.eq_of_mem_replicate h) (by decide)]
  rfl

/-- The walk ends early, although a file with the suffix comes later. -/
theorem walk_overlongLink :
    (stoppedDisk overlongName).tree.Proper ∧
      (stoppedDisk overlongName).readDirectory stoppedRoot = .ok (stoppedEntries overlongName) ∧
      (FileTree.directory (stoppedEntries overlongName)).Visits ["skip"].contains
        ["z.module.ts"] ∧
      ¬ (FileTree.directory (stoppedEntries overlongName)).HasDirectory ["z.module.ts"] ∧
      moduleSuffix.toList <:+ "z.module.ts".toList ∧
      (stoppedDisk overlongName).walk Stack.usual.levels ["skip"].contains
          (nameEndsWith moduleSuffix) stoppedRoot =
        ⟨[⟨"/", ["project", "lib", "c.module.ts"]⟩],
          some (.unseen ⟨.nameTooLong, ⟨"/", ["project", "m"]⟩⟩)⟩ := by
  have hvisits : (FileTree.directory (stoppedEntries overlongName)).Visits ["skip"].contains
      ["z.module.ts"] :=
    FileTree.visits_cons_iff.mpr ⟨.file [], rfl, .inl rfl⟩
  have hm : (stoppedDisk overlongName).isDirectory (stoppedRoot.below ["m"]) =
      .error ⟨.nameTooLong, ⟨"/", ["project", "m"]⟩⟩ := isDirectory_overlongLink
  refine ⟨proper_stoppedDisk _, readDirectory_stoppedDisk _, hvisits, ?_, by decide, ?_⟩
  · rintro ⟨inside, h⟩
    cases h
  · rw [walk_of_readDirectory (readDirectory_stoppedDisk _), walk_stoppedEntries _ (by decide)]
    let visit := (stoppedDisk overlongName).visit Stack.usual.levels ["skip"].contains
      (nameEndsWith moduleSuffix) stoppedRoot
    have hlib : visit ["lib"] = .ok false := rfl
    have hfile : visit ["lib", "c.module.ts"] = .ok true := rfl
    have hloop : visit ["lib", "loop"] = .ok false := rfl
    have hstop : visit ["m"] =
        .error (.unseen ⟨.nameTooLong, ⟨"/", ["project", "m"]⟩⟩) := by
      show Disk.visit _ _ _ _ _ _ = _
      rw [Disk.visit, isRealDirectory, hm]
      rfl
    show Walk.along stoppedRoot visit _ = _
    simp only [List.cons_append, Walk.along_eq, hlib, hfile, hloop, hstop]
    rfl

/-- A directory that cannot be listed stops the walk, however directories list their entries. -/
theorem walk_exact_unlisted :
    (stoppedDisk "..").tree.Proper ∧
      (stoppedDisk "..").readDirectory stoppedRoot = .ok (stoppedEntries "..") ∧
      let d := (stoppedDisk "..").refuse .list (stoppedRoot.below ["skip"]) .denied
      d.StopsAt Stack.usual.levels [].contains stoppedRoot (stoppedEntries "..") ["skip"]
          (.unlisted ⟨.refused .denied, stoppedRoot.below ["skip"]⟩) ∧
        ∀ d', d.SameLookups d' → d'.tree.Proper →
          d'.walk Stack.usual.levels [].contains (nameEndsWith moduleSuffix) stoppedRoot =
            ⟨[⟨"/", ["project", "lib", "c.module.ts"]⟩],
              some (.unlisted ⟨.refused .denied, stoppedRoot.below ["skip"]⟩)⟩ := by
  let d := (stoppedDisk "..").refuse .list (stoppedRoot.below ["skip"]) .denied
  have hproper : d.tree.Proper := proper_stoppedDisk ".."
  have hstart : d.readDirectory stoppedRoot = .ok (stoppedEntries "..") := rfl
  have hwalk : d.walk Stack.usual.levels [].contains (nameEndsWith moduleSuffix) stoppedRoot =
      ⟨[⟨"/", ["project", "lib", "c.module.ts"]⟩],
        some (.unlisted ⟨.refused .denied, stoppedRoot.below ["skip"]⟩)⟩ := by
    rw [walk_of_readDirectory hstart, walk_stoppedEntries _ (by simp)]
    rfl
  obtain ⟨w, hw, -, -, hfailure, -, -, hlisting⟩ :=
    walk_exact hproper hstart Stack.usual.levels [] moduleSuffix
  obtain rfl := hwalk.symm.trans hw
  obtain ⟨place, hstop, -⟩ := (hfailure _).mp rfl
  have hpath : stoppedRoot.below ["skip"] = stoppedRoot.below place := hstop.path_eq
  obtain rfl : ["skip"] = place := List.append_cancel_left (congrArg Path.parts hpath)
  exact ⟨proper_stoppedDisk "..", rfl, hstop, hlisting⟩

end ModuleGraph.Disk
