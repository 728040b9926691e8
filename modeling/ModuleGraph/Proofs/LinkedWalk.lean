import ModuleGraph.Proofs.AddedLink
import ModuleGraph.Proofs.ExactWalk

/-! What a link to a directory changes for walks. A walk does not enter it, but takes it for a file
if its name has the suffix, and ends there if it is nested too deeply. -/

namespace ModuleGraph

/-- A walk from `root` comes to the entries of `directory`. -/
def FileTree.Entered (excluded : String → Bool) (root directory : List String) : Prop :=
  ∃ above, directory = root ++ above ∧ ∀ name ∈ above, excluded name = false

theorem FileTree.Entered.exists_place {excluded : String → Bool} {root directory : List String}
    (h : FileTree.Entered excluded root directory) (name : String) :
    ∃ place, root ++ place = directory ++ [name] := by
  obtain ⟨above, rfl, -⟩ := h
  exact ⟨above ++ [name], (List.append_assoc root above [name]).symm⟩

namespace Disk

/-- Walks from `root` on two disks come to the same places and take the same ones for files, apart
from what the second disk has besides. -/
structure WalksBeside (d d' : Disk) (levels : Nat) (excluded accepted : String → Bool)
    (root directory : List String) (name : String) (places places' : List (List String)) :
    Prop where
  walk : d.walk levels excluded accepted (.ofPlace root) =
    .along (.ofPlace root) (d.visit levels excluded accepted (.ofPlace root)) places
  walk' : d'.walk levels excluded accepted (.ofPlace root) =
    .along (.ofPlace root) (d'.visit levels excluded accepted (.ofPlace root)) places'
  sorted : places.Pairwise (· < ·)
  sorted' : places'.Pairwise (· < ·)
  isEntry : ∀ place ∈ places, ∃ node, d.tree.at? (root ++ place) = some node
  visit : ∀ place ∈ places, d'.visit levels excluded accepted (.ofPlace root) place =
    d.visit levels excluded accepted (.ofPlace root) place
  mem : ∀ place, place ∈ places' ↔ place ∈ places ∨
    root ++ place = directory ++ [name] ∧ FileTree.Entered excluded root directory

variable {d d' : Disk} {levels : Nat} {excluded accepted : String → Bool} {name : String}
variable {directory root place : List String} {entries entries' : List (String × FileTree)}
variable {node : FileTree}

theorem name_below (hplace : root ++ place = directory ++ [name]) :
    ((Path.ofPlace root).below place).name = name := by
  show ((root ++ place).getLast?).getD "" = name
  rw [hplace, List.getLast?_concat, Option.getD_some]

section LinkAdded

variable (h : d.LinkAdded d' directory name)
include h

theorem LinkAdded.readDirectory_cases (hproper : d.tree.Proper)
    (hroot : d.tree.HasDirectory root) :
    (∃ e, d.readDirectory (.ofPlace root) = .error e ∧
      d'.readDirectory (.ofPlace root) = .error e) ∨
    ∃ entries entries', d.tree.at? root = some (.directory entries) ∧
      d'.tree.at? root = some (.directory entries') ∧
      d.readDirectory (.ofPlace root) = .ok entries ∧
      d'.readDirectory (.ofPlace root) = .ok entries' := by
  obtain ⟨entries', hentries'⟩ := h.hasDirectory hroot
  obtain ⟨entries, hentries⟩ := hroot
  have hrefusal := h.refusal .list root (h.not_prefix_of_at? hentries)
  have hlocate := locate_ofPlace hproper hentries (by simp)
  have hlocate' := locate_ofPlace (h.proper hproper) hentries' (by simp)
  rcases readDirectory_of_locate hlocate with ⟨hok, hgranted⟩ | ⟨r, hr, he⟩
  · exact .inr ⟨entries, entries', hentries, hentries', hok,
      readDirectory_eq_ok_iff.mpr ⟨hrefusal.trans hgranted, root, hlocate'⟩⟩
  · exact .inl ⟨_, he, by rw [readDirectory, access_of_refused (hrefusal.trans hr)]⟩

theorem LinkAdded.looksAlike_entry (hproper : d.tree.Proper) (hroot : d.tree.HasDirectory root)
    (hplace : place ≠ []) (hnode : d.tree.at? (root ++ place) = some node) :
    d.LooksAlike d' .lookAtEntry (.ofPlace (root ++ place)) := by
  have hrefusal := h.refusal .lookAtEntry (root ++ place) (h.not_prefix_of_at? hnode)
  have halike := h.alike (h.ne_of_at? hnode)
  obtain ⟨entries', hentries'⟩ := h.hasDirectory hroot
  obtain ⟨entries, hentries⟩ := hroot
  rw [LooksAlike]
  cases hgranted : d.refusal .lookAtEntry (.ofPlace (root ++ place)) with
  | some r =>
    rw [node?, node?, hrefusal, hgranted]
    exact .inl rfl
  | none =>
    have hreach : ∀ {d : Disk} {entries node}, d.tree.Proper →
        d.tree.at? root = some (.directory entries) → d.tree.at? (root ++ place) = some node →
        d.reach .lookAtEntry (.ofPlace (root ++ place)) = .ok (.node (root ++ place) node) :=
      fun hproper hentries hnode => locateEntry_below (locate_ofPlace hproper hentries (by simp))
        hnode hplace fun name hname => hproper.isName _ _ hnode name (List.mem_append_right _ hname)
    rw [node?_of_reach (hreach hproper hentries hnode) hgranted]
    rcases halike with he | ⟨inside, inside', he, he'⟩
    · rw [node?_of_reach (hreach (h.proper hproper) hentries' (he ▸ hnode))
        (hrefusal.trans hgranted)]
      exact .inl rfl
    · obtain rfl : node = .directory inside := Option.some.inj (hnode.symm.trans he)
      rw [node?_of_reach (hreach (h.proper hproper) hentries' he') (hrefusal.trans hgranted)]
      exact .inr ⟨inside, inside', rfl, rfl⟩

theorem LinkAdded.visit_eq (hproper : d.tree.Proper) (hlinks : d.KeepsLinks d' root)
    (hentries : d.tree.at? root = some (.directory entries))
    (hstart : d.readDirectory (.ofPlace root) = .ok entries)
    (hvisits : (FileTree.directory entries).Visits excluded place) :
    d'.visit levels excluded accepted (.ofPlace root) place =
      d.visit levels excluded accepted (.ofPlace root) place := by
  have hat : d.tree.at? (root ++ place) = (FileTree.directory entries).at? place := by
    rw [FileTree.at?_append, hentries, Option.bind_some]
  obtain ⟨hplace, node, hnode⟩ := hvisits.isEntry
  obtain ⟨hrefusal, hfinds⟩ := h.finds_entry hproper hlinks (hat.trans hnode)
  refine visit_congr (h.looksAlike hrefusal hfinds)
    (h.looksAlike_entry hproper ⟨entries, hentries⟩ hplace (hat.trans hnode)) fun hreal => ?_
  obtain ⟨inside, hinside⟩ := (isRealDirectory_eq_ok hproper hstart hvisits hreal).mp rfl
  rcases h.readDirectory_cases hproper ⟨inside, hat.trans hinside⟩ with
    ⟨e, he, he'⟩ | ⟨listed, listed', -, -, hlisted, hlisted'⟩
  · exact .inl (he'.trans he.symm)
  · exact .inr ⟨listed, listed', hlisted, hlisted'⟩

theorem LinkAdded.visit_link (hplace : root ++ place = directory ++ [name]) :
    d'.visit levels excluded accepted (.ofPlace root) place =
      if root.length + levels ≤ directory.length then .error .tooDeep else .ok (accepted name) := by
  have hname := name_below hplace
  have hbelow : (Path.ofPlace root).below place = .ofPlace (directory ++ [name]) :=
    congrArg Path.ofPlace hplace
  have hdepth : levels < place.length ↔ root.length + levels ≤ directory.length := by
    have hlength := congrArg List.length hplace
    simp only [List.length_append, List.length_singleton] at hlength
    omega
  rw [hbelow] at hname
  rw [visit, hbelow, isRealDirectory, h.leads, h.seen, hname]
  exact if_congr hdepth rfl rfl

theorem LinkAdded.visits_iff (hentries : d.tree.at? root = some (.directory entries))
    (hentries' : d'.tree.at? root = some (.directory entries')) :
    (FileTree.directory entries').Visits excluded place ↔
      (FileTree.directory entries).Visits excluded place ∨
        root ++ place = directory ++ [name] ∧ FileTree.Entered excluded root directory := by
  have hat : (FileTree.directory entries).at? place = d.tree.at? (root ++ place) := by
    rw [FileTree.at?_append, hentries, Option.bind_some]
  have hat' : (FileTree.directory entries').at? place = d'.tree.at? (root ++ place) := by
    rw [FileTree.at?_append, hentries', Option.bind_some]
  by_cases hplace : root ++ place = directory ++ [name]
  · have hbefore : ¬ (FileTree.directory entries).Visits excluded place := by
      rw [FileTree.visits_iff, hat, hplace, h.free]
      simp
    obtain ⟨target, hplaced⟩ := h.placed
    rw [or_iff_right hbefore, and_iff_right hplace, FileTree.visits_iff, hat', hplace,
      hplaced.here]
    cases place using List.reverseRecOn with
    | nil => exact absurd (by rwa [List.append_nil] at hplace) (h.ne_of_at? hentries)
    | append_singleton above last =>
      rw [← List.append_assoc] at hplace
      obtain ⟨rfl, -⟩ := List.append_inj' hplace rfl
      simp [FileTree.Entered]
  · have halike := h.alike hplace
    rw [← hat, ← hat'] at halike
    rw [or_iff_left fun hlink => hplace hlink.1]
    exact ⟨.of_alike halike.symm, .of_alike halike⟩

theorem LinkAdded.exists_walks (hproper : d.tree.Proper) (hroot : d.tree.HasDirectory root)
    (hlinks : d.KeepsLinks d' root) (levels : Nat) (excluded accepted : String → Bool) :
    (∃ e, d.walk levels excluded accepted (.ofPlace root) = ⟨[], some e⟩ ∧
      d'.walk levels excluded accepted (.ofPlace root) = ⟨[], some e⟩) ∨
    ∃ places places',
      d.WalksBeside d' levels excluded accepted root directory name places places' := by
  rcases h.readDirectory_cases hproper hroot with
    ⟨e, he, he'⟩ | ⟨entries, entries', hentries, hentries', hstart, hstart'⟩
  · exact .inl ⟨.unlisted e, by rw [walk, he], by rw [walk, he']⟩
  have hwell := hproper.at? hentries
  have hwell' := (h.proper hproper).at? hentries'
  refine .inr ⟨_, _, walk_of_readDirectory hstart, walk_of_readDirectory hstart',
    FileTree.pairwise_walk_of_proper hwell, FileTree.pairwise_walk_of_proper hwell',
    fun place hplace => ?_, fun place hplace => ?_, fun place => ?_⟩
  · obtain ⟨-, node, hnode⟩ := ((FileTree.mem_walk hwell).mp hplace).isEntry
    exact ⟨node, by rw [FileTree.at?_append, hentries]; exact hnode⟩
  · exact h.visit_eq hproper hlinks hentries hstart ((FileTree.mem_walk hwell).mp hplace)
  · rw [FileTree.mem_walk hwell, FileTree.mem_walk hwell', h.visits_iff hentries hentries']

theorem LinkAdded.sameContent_file (hproper : d.tree.Proper) (hroot : d.tree.HasDirectory root)
    (hlinks : d.KeepsLinks d' root) :
    ∀ file ∈ (d.walk levels excluded accepted (.ofPlace root)).files, d.SameContent d' file := by
  rcases h.exists_walks hproper hroot hlinks levels excluded accepted with
    ⟨e, he, -⟩ | ⟨places, places', hwalks⟩
  · simp [he]
  intro file hfile
  rw [hwalks.walk] at hfile
  obtain ⟨place, hplace, rfl⟩ := List.mem_map.mp ((Walk.files_along_sublist _).mem hfile)
  obtain ⟨node, hnode⟩ := hwalks.isEntry place hplace
  obtain ⟨hrefusal, hfinds⟩ := h.finds_entry hproper hlinks hnode
  exact h.sameContent_of_finds hrefusal hfinds

/-- Unless it takes the link for a file or ends at the link, a walk finds what it found. -/
theorem LinkAdded.walk_eq (hproper : d.tree.Proper) (hroot : d.tree.HasDirectory root)
    (hlinks : d.KeepsLinks d' root)
    (hapart : ¬ (FileTree.Entered excluded root directory ∧
      (accepted name = true ∨ root.length + levels ≤ directory.length))) :
    d'.walk levels excluded accepted (.ofPlace root) =
      d.walk levels excluded accepted (.ofPlace root) := by
  rcases h.exists_walks hproper hroot hlinks levels excluded accepted with
    ⟨e, he, he'⟩ | ⟨places, places', hwalks⟩
  · rw [he, he']
  have hsame : ∀ place answer, answer ≠ .ok false →
      (place ∈ places' ∧ d'.visit levels excluded accepted (.ofPlace root) place = answer ↔
        place ∈ places ∧ d.visit levels excluded accepted (.ofPlace root) place = answer) := by
    intro place answer hanswer
    constructor
    · rintro ⟨hplace, hvisit⟩
      rcases (hwalks.mem place).mp hplace with hplace | ⟨hlink, hentered⟩
      · exact ⟨hplace, hwalks.visit place hplace ▸ hvisit⟩
      · obtain ⟨hname, hlevels⟩ := not_or.mp fun htaken => hapart ⟨hentered, htaken⟩
        rw [Bool.not_eq_true] at hname
        rw [h.visit_link hlink, if_neg hlevels, hname] at hvisit
        exact absurd hvisit.symm hanswer
    · rintro ⟨hplace, hvisit⟩
      exact ⟨(hwalks.mem place).mpr (.inl hplace), (hwalks.visit place hplace).trans hvisit⟩
  rw [hwalks.walk, hwalks.walk']
  exact Walk.along_ext hwalks.sorted hwalks.sorted' (fun place => hsame place _ (by simp))
    fun place e => hsame place _ (by simp)

/-- A walk that ended well and can go as deep as the link does not end there, and it finds the link
besides what it found if it takes it for a file. -/
theorem LinkAdded.walk_taken (hproper : d.tree.Proper) (hroot : d.tree.HasDirectory root)
    (hlinks : d.KeepsLinks d' root) (hentered : FileTree.Entered excluded root directory)
    (haccepted : accepted name = true) (hlevels : directory.length < root.length + levels)
    {files : List Path} (hfiles : d.walk levels excluded accepted (.ofPlace root) = ⟨files, none⟩) :
    .ofPlace (directory ++ [name]) ∉ files ∧
      ∃ files', d'.walk levels excluded accepted (.ofPlace root) = ⟨files', none⟩ ∧
        ∀ file, file ∈ files' ↔ file ∈ files ∨ file = .ofPlace (directory ++ [name]) := by
  rcases h.exists_walks hproper hroot hlinks levels excluded accepted with
    ⟨e, he, -⟩ | ⟨places, places', hwalks⟩
  · cases hfiles.symm.trans he
  have hlink : ∀ place, root ++ place = directory ++ [name] →
      d'.visit levels excluded accepted (.ofPlace root) place = .ok true := by
    intro place hplace
    rw [h.visit_link hplace, if_neg (Nat.not_le.mpr hlevels), haccepted]
  obtain ⟨hok, hmem⟩ := Walk.of_along_eq hwalks.sorted (hwalks.walk.symm.trans hfiles)
  have hok' : ∀ place ∈ places', ∃ isFile,
      d'.visit levels excluded accepted (.ofPlace root) place = .ok isFile := by
    intro place hplace
    rcases (hwalks.mem place).mp hplace with hplace | ⟨hplace, -⟩
    · exact hwalks.visit place hplace ▸ hok place hplace
    · exact ⟨true, hlink place hplace⟩
  obtain ⟨files', hfiles'⟩ := Walk.exists_along hok'
  obtain ⟨-, hmem'⟩ := Walk.of_along_eq hwalks.sorted' hfiles'
  refine ⟨fun htaken => ?_, files', hwalks.walk'.trans hfiles', fun file => ?_⟩
  · obtain ⟨place, hplace, he, -⟩ := (hmem _).mp htaken
    obtain ⟨node, hnode⟩ := hwalks.isEntry place hplace
    exact h.ne_of_at? hnode (Path.mk.inj he).2.symm
  rw [hmem', hmem]
  constructor
  · rintro ⟨place, hplace, rfl, hvisit⟩
    rcases (hwalks.mem place).mp hplace with hplace | ⟨hplace, -⟩
    · exact .inl ⟨place, hplace, rfl, hwalks.visit place hplace ▸ hvisit⟩
    · exact .inr (congrArg Path.ofPlace hplace)
  · rintro (⟨place, hplace, rfl, hvisit⟩ | rfl)
    · exact ⟨place, (hwalks.mem place).mpr (.inl hplace), rfl,
        (hwalks.visit place hplace).trans hvisit⟩
    · obtain ⟨place, hplace⟩ := hentered.exists_place name
      exact ⟨place, (hwalks.mem place).mpr (.inr ⟨hplace, hentered⟩),
        congrArg Path.ofPlace hplace.symm, hlink place hplace⟩

/-- A walk that comes to the link and cannot go as deep ends early. -/
theorem LinkAdded.walk_tooDeep (hproper : d.tree.Proper) (hroot : d.tree.HasDirectory root)
    (hlinks : d.KeepsLinks d' root) (hentered : FileTree.Entered excluded root directory)
    (hlevels : root.length + levels ≤ directory.length) :
    (d'.walk levels excluded accepted (.ofPlace root)).failure ≠ none := by
  rcases h.exists_walks hproper hroot hlinks levels excluded accepted with
    ⟨e, -, he⟩ | ⟨places, places', hwalks⟩
  · simp [he]
  rw [hwalks.walk', ne_eq, Walk.failure_along_eq_none_iff]
  intro hok
  obtain ⟨place, hplace⟩ := hentered.exists_place name
  obtain ⟨isFile, hvisit⟩ := hok place ((hwalks.mem place).mpr (.inr ⟨hplace, hentered⟩))
  rw [h.visit_link hplace, if_pos hlevels] at hvisit
  cases hvisit

end LinkAdded

end Disk

end ModuleGraph
