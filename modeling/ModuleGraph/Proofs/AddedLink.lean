import ModuleGraph.Proofs.DirectPath
import ModuleGraph.Proofs.ListingOrder
import ModuleGraph.Proofs.SameContent
import ModuleGraph.Proofs.VisitedPlaces

/-! What a link to a directory changes for paths. Every path that led somewhere still leads there,
so what a project is known by stays the same. -/

namespace ModuleGraph

namespace FileTree

variable {t node : FileTree} {name : String} {directory : List String}
variable {entries : List (String × FileTree)}

theorem Proper.upsert (h : (FileTree.directory entries).Proper) (hname : IsName name)
    (hnode : node.Proper) : (FileTree.directory (upsert name node entries)).Proper := by
  have hdistinct := h.distinct [] entries rfl
  refine proper_directory (nodup_keys_upsert name node hdistinct) fun e he => ?_
  rcases eq_or_mem_of_mem_upsert he with rfl | he
  · exact ⟨hname, hnode⟩
  · have hentry : (FileTree.directory entries).at? [e.1] = some e.2 := by
      rw [at?_cons, (lookup_eq_some_iff_mem hdistinct).mpr he]
      rfl
    exact ⟨h.isName _ _ hentry e.1 (List.mem_singleton_self _), h.entry he⟩

theorem Proper.put (h : t.Proper) (hdirectory : t.HasDirectory directory) (hname : IsName name)
    (hnode : node.Proper) : (t.put (directory ++ [name]) node).Proper := by
  induction directory generalizing t with
  | nil =>
    obtain ⟨entries, hentries⟩ := hdirectory
    obtain rfl : t = .directory entries := Option.some.inj hentries
    exact h.upsert hname hnode
  | cons first directory ih =>
    obtain ⟨siblings, next, rfl, hlookup, hnext⟩ := hdirectory.cons
    have hfirst : (FileTree.directory siblings).at? [first] = some next := by
      rw [at?_cons, hlookup]
      rfl
    rw [List.cons_append, FileTree.put, hlookup, Option.getD_some]
    exact h.upsert (h.isName _ _ hfirst first (List.mem_singleton_self _)) (ih (h.at? hfirst) hnext)

end FileTree

namespace Disk

/-- The disk `d'` has one more entry, which shows as a link to a directory. What the system refuses
is the same but for the link and what lies beyond it. -/
structure LinkAdded (d d' : Disk) (directory : List String) (name : String) : Prop where
  here : d'.here = d.here
  refusal : ∀ a place, ¬ directory ++ [name] <+: place →
    d'.refusal a (.ofPlace place) = d.refusal a (.ofPlace place)
  put : ∃ target, d'.tree = d.tree.put (directory ++ [name]) (.link target)
  inside : d.tree.HasDirectory directory
  free : d.tree.at? (directory ++ [name]) = none
  isName : IsName name
  absent : d.contains (.ofPlace (directory ++ [name])) = .ok false
  leads : d'.isDirectory (.ofPlace (directory ++ [name])) = .ok true
  seen : d'.isLink (.ofPlace (directory ++ [name])) = .ok true

/-- Whether a path leads to something, unless it comes to a name that is too long. -/
def finds (d : Disk) (p : Path) : Except AccessFault Bool :=
  match d.locate p with
  | .ok (.node _ _) => .ok true
  | .error .nameTooLong => .error .nameTooLong
  | _ => .ok false

/-- No link below `root` leads to something in `d'` that led to nothing in `d`. -/
def KeepsLinks (d d' : Disk) (root : List String) : Prop :=
  ∀ below text, d.tree.at? (root ++ below) = some (.link text) →
    d'.finds (.ofPlace (root ++ below)) = d.finds (.ofPlace (root ++ below))

variable {d d' : Disk} {directory root place : List String} {name : String} {p : Path}
variable {node : FileTree}

theorem locate_ofPlace (hproper : d.tree.Proper) (hnode : d.tree.at? place = some node)
    (hlink : ∀ text, node ≠ .link text) :
    d.locate (.ofPlace place) = .ok (.node place node) :=
  goAlong_below hnode (fun text he => absurd he (hlink text)) (hproper.isName place node hnode)

theorem locate_free (hproper : d.tree.Proper) (hroot : d.tree.HasDirectory root)
    (hname : IsName name) (hfree : d.tree.at? (root ++ [name]) = none) :
    d.locate (.ofPlace (root ++ [name])) = .ok (.free root name) := by
  obtain ⟨entries, hentries⟩ := hroot
  obtain ⟨left, hleft⟩ :=
    goWithin_append true (locate_ofPlace hproper hentries (by simp)) [name] (by simp)
  refine hleft.trans ?_
  rw [goAlong_name hname, hfree, hentries]
  rfl

theorem finds_eq_true_iff :
    d.finds p = .ok true ↔ ∃ place node, d.locate p = .ok (.node place node) := by
  rw [finds]
  split <;> simp_all

theorem node?_of_finds (hgranted : d.refusal .look p = none) (h : d.finds p ≠ .ok true) :
    d.node? .look p =
      match d.finds p with
      | .ok _ => .ok none
      | .error fault => .error ⟨fault, p⟩ := by
  have hreach : d.reach .look p = d.locate p := rfl
  rw [node?, hgranted, hreach]
  rw [finds] at h ⊢
  cases hlocate : d.locate p with
  | ok found =>
    rw [hlocate] at h
    cases found with
    | node place node => exact absurd rfl h
    | free directory name => rfl
    | slashed fault => rfl
  | error fault => cases fault <;> rfl

theorem contains_of_isDirectory (h : d.isDirectory p = .ok true) : d.contains p = .ok true := by
  obtain ⟨shown, hshown, hdirectory⟩ := isDirectory_eq_ok_iff.mp h
  obtain ⟨entries, rfl⟩ := hdirectory.mp rfl
  rw [contains, hshown]
  rfl

theorem locate_of_isDirectory (h : d.isDirectory p = .ok true) :
    ∃ place entries, d.locate p = .ok (.node place (.directory entries)) := by
  obtain ⟨shown, hshown, hdirectory⟩ := isDirectory_eq_ok_iff.mp h
  obtain ⟨entries, rfl⟩ := hdirectory.mp rfl
  rw [node?] at hshown
  split at hshown
  · cases hshown
  split at hshown
  · rename_i place found hreach
    obtain rfl : found = .directory entries := Option.some.inj (Except.ok.inj hshown)
    exact ⟨place, entries, hreach⟩
  all_goals cases hshown

/-- A directory cannot be read. -/
theorem read_of_isDirectory (h : d.isDirectory p = .ok true) :
    ∃ e, d.read p = .error e ∧ (d.refusal .read p = none → e = ⟨.isDirectory, p⟩) := by
  obtain ⟨place, entries, hlocate⟩ := locate_of_isDirectory h
  cases hgranted : d.refusal .read p with
  | some r => exact ⟨⟨.refused r, p⟩, by rw [read, access_of_refused hgranted], by simp⟩
  | none => exact ⟨_, by rw [read, access_of_granted rfl hgranted, hlocate], fun _ => rfl⟩

section LinkAdded

variable (h : d.LinkAdded d' directory name)
include h

theorem LinkAdded.placed :
    ∃ target, d.tree.Placed d'.tree (directory ++ [name]) (.link target) := by
  obtain ⟨target, htree⟩ := h.put
  refine ⟨target, htree ▸ FileTree.placed_put h.inside (fun _ _ => rfl) fun other hother => ?_⟩
  rw [h.free] at hother
  cases hother

theorem LinkAdded.alike (hplace : place ≠ directory ++ [name]) :
    FileTree.Alike (d.tree.at? place) (d'.tree.at? place) := by
  obtain ⟨target, hplaced⟩ := h.placed
  exact hplaced.elsewhere place hplace

theorem LinkAdded.not_prefix_of_at? (hnode : d.tree.at? place = some node) :
    ¬ directory ++ [name] <+: place := by
  rintro ⟨rest, rfl⟩
  rw [FileTree.at?_append, h.free] at hnode
  cases hnode

theorem LinkAdded.ne_of_at? (hnode : d.tree.at? place = some node) :
    place ≠ directory ++ [name] := by
  rintro rfl
  exact h.not_prefix_of_at? hnode (List.prefix_refl _)

theorem LinkAdded.proper (hproper : d.tree.Proper) : d'.tree.Proper := by
  obtain ⟨target, htree⟩ := h.put
  have hlink : (FileTree.link target).Proper := FileTree.proper_of_leaf (fun _ => rfl) (by simp)
  rw [htree]
  exact hproper.put h.inside h.isName hlink

theorem LinkAdded.hasDirectory (hroot : d.tree.HasDirectory root) :
    d'.tree.HasDirectory root := by
  obtain ⟨target, hplaced⟩ := h.placed
  exact hplaced.hasDirectory hroot

/-- A path that led to a node leads to the same place. -/
theorem LinkAdded.locate_node (hlocate : d.locate p = .ok (.node place node)) :
    ∃ node', FileTree.Alike (some node) (some node') ∧
      d'.locate p = .ok (.node place node') := by
  obtain ⟨target, hplaced⟩ := h.placed
  have hnode : d.tree.at? place = some node := holds_goWithin hlocate
  have hne := h.ne_of_at? hnode
  have halike := h.alike hne
  rw [hnode] at halike
  obtain ⟨node', hnode'⟩ : ∃ node', d'.tree.at? place = some node' := by
    rcases halike with he | ⟨-, entries', -, he⟩
    · exact ⟨node, he.symm⟩
    · exact ⟨.directory entries', he⟩
  exact ⟨node', hnode' ▸ halike,
    locate_of_placed h.here hplaced (fun he => absurd he hne) hnode' ⟨_, hlocate, rfl⟩⟩

/-- A path that showed a node shows it still, and one that shows none fails alike. -/
theorem LinkAdded.looksAlike (hrefusal : ∀ a, d'.refusal a p = d.refusal a p)
    (hfinds : d'.finds p = d.finds p) : d.LooksAlike d' .look p := by
  cases hgranted : d.refusal .look p with
  | some r =>
    rw [LooksAlike, node?, node?, hrefusal, hgranted]
    exact .inl rfl
  | none =>
    have hgranted' : d'.refusal .look p = none := (hrefusal .look).trans hgranted
    by_cases hthere : d.finds p = .ok true
    · obtain ⟨place, node, hlocate⟩ := finds_eq_true_iff.mp hthere
      obtain ⟨node', halike, hlocate'⟩ := h.locate_node hlocate
      rw [LooksAlike, node?_of_reach (a := .look) hlocate hgranted,
        node?_of_reach (a := .look) hlocate' hgranted']
      rcases halike with he | ⟨entries, entries', he, he'⟩
      · exact .inl (congrArg _ he.symm)
      · exact .inr ⟨entries, entries', congrArg _ he, congrArg _ he'⟩
    · rw [LooksAlike, node?_of_finds hgranted hthere,
        node?_of_finds hgranted' (hfinds ▸ hthere), hfinds]
      exact .inl rfl

theorem LinkAdded.hasFile_iff (hfinds : d'.finds p = d.finds p) (content : List UInt8) :
    d'.HasFile p content ↔ d.HasFile p content := by
  constructor
  · rintro ⟨place', hfile⟩
    have hthere : d.finds p = .ok true := hfinds ▸ finds_eq_true_iff.mpr ⟨_, _, hfile⟩
    obtain ⟨place, node, hlocate⟩ := finds_eq_true_iff.mp hthere
    obtain ⟨node', halike, hlocate'⟩ := h.locate_node hlocate
    rw [hlocate', Except.ok.injEq, Located.node.injEq] at hfile
    rw [hfile.2] at halike
    exact ⟨place, Option.some.inj (halike.symm.eq_of_leaf (by simp)) ▸ hlocate⟩
  · rintro ⟨place, hlocate⟩
    obtain ⟨node', halike, hlocate'⟩ := h.locate_node hlocate
    exact ⟨place, Option.some.inj (halike.eq_of_leaf (by simp)) ▸ hlocate'⟩

theorem LinkAdded.sameContent_of_finds (hrefusal : ∀ a, d'.refusal a p = d.refusal a p)
    (hfinds : d'.finds p = d.finds p) : d.SameContent d' p where
  contains := fun e => by rw [(h.looksAlike hrefusal hfinds).contains]
  read := fun content => by rw [read_eq_ok_iff, read_eq_ok_iff, hrefusal, h.hasFile_iff hfinds]

/-- Where something was, the system refuses what it refused, and the same is found. -/
theorem LinkAdded.finds_entry (hproper : d.tree.Proper) (hlinks : d.KeepsLinks d' root)
    (hnode : d.tree.at? (root ++ place) = some node) :
    (∀ a, d'.refusal a (.ofPlace (root ++ place)) = d.refusal a (.ofPlace (root ++ place))) ∧
      d'.finds (.ofPlace (root ++ place)) = d.finds (.ofPlace (root ++ place)) := by
  refine ⟨fun a => h.refusal a _ (h.not_prefix_of_at? hnode), ?_⟩
  by_cases hlink : ∀ text, node ≠ .link text
  · have hlocate := locate_ofPlace hproper hnode hlink
    obtain ⟨node', -, hlocate'⟩ := h.locate_node hlocate
    rw [finds_eq_true_iff.mpr ⟨_, _, hlocate⟩, finds_eq_true_iff.mpr ⟨_, _, hlocate'⟩]
  · obtain ⟨text, rfl⟩ := by simpa using hlink
    exact hlinks place text hnode

/-- Where nothing was there is the link now, but no file. -/
theorem LinkAdded.sameContent_link (hproper : d.tree.Proper) :
    d.SameContent d' (.ofPlace (directory ++ [name])) where
  contains := fun e => by rw [contains_of_isDirectory h.leads, h.absent]; simp
  read := by
    intro content
    obtain ⟨e, he, -⟩ := read_of_isDirectory h.leads
    refine iff_of_false (by simp [he]) fun hread => ?_
    obtain ⟨-, there, hfile⟩ := read_eq_ok_iff.mp hread
    cases (locate_free hproper h.inside h.isName h.free).symm.trans hfile

/-- A file that the analysis looks for in the project's directory is there with the same content,
or is not there. -/
theorem LinkAdded.sameContent_child (hproper : d.tree.Proper) (hroot : d.tree.HasDirectory root)
    (hlinks : d.KeepsLinks d' root) {file : String} (hfile : IsName file) :
    d.SameContent d' (.ofPlace (root ++ [file])) := by
  by_cases hplace : root ++ [file] = directory ++ [name]
  · exact hplace ▸ h.sameContent_link hproper
  cases hnode : d.tree.at? (root ++ [file]) with
  | some node =>
    obtain ⟨hrefusal, hfinds⟩ := h.finds_entry hproper hlinks hnode
    exact h.sameContent_of_finds hrefusal hfinds
  | none =>
    have hfree' : d'.tree.at? (root ++ [file]) = none :=
      ((h.alike hplace).eq_of_leaf (by simp [hnode])).trans hnode
    have hlocate := locate_free hproper hroot hfile hnode
    have hlocate' := locate_free (h.proper hproper) (h.hasDirectory hroot) hfile hfree'
    have hbeyond : ¬ directory ++ [name] <+: root ++ [file] := by
      obtain ⟨entries, hentries⟩ := hroot
      rw [List.prefix_concat_iff, not_or]
      exact ⟨fun he => hplace he.symm, h.not_prefix_of_at? hentries⟩
    refine h.sameContent_of_finds (fun a => h.refusal a _ hbeyond) ?_
    rw [finds, finds, hlocate, hlocate']

end LinkAdded

end Disk

end ModuleGraph
