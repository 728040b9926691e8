import Mathlib.Data.List.Induction
import ModuleGraph.Proofs.PathEnd

/-! What a write to a disk changes. A path that led to a file still leads to it, a written file
holds what was written, and other files keep their content. -/

namespace ModuleGraph.Disk

variable {d d' : Disk} {p q : Path} {place : List String} {content written : List UInt8}

/-- A path leads to a file with this content, whether or not the system lets it be read. -/
def HasFile (d : Disk) (p : Path) (content : List UInt8) : Prop :=
  ∃ place, d.locate p = .ok (.node place (.file content))

theorem HasFile.unique (h : d.HasFile p content) (h' : d.HasFile p written) : content = written := by
  obtain ⟨place, hplace⟩ := h
  obtain ⟨place', hplace'⟩ := h'
  rw [hplace, Except.ok.injEq, Located.node.injEq] at hplace'
  exact FileTree.file.inj hplace'.2

/-- Two paths lead to one file. -/
def SameFile (d : Disk) (p q : Path) : Prop :=
  ∃ place content, d.locate p = .ok (.node place (.file content)) ∧
    d.locate q = .ok (.node place (.file content))

/-- The disk `d'` is `d` with a node that has been put at a place. -/
structure Placed (d d' : Disk) (place : List String) (node : FileTree) : Prop where
  here : d'.here = d.here
  refusal : d'.refusal = d.refusal
  tree : d.tree.Placed d'.tree place node

theorem access_of_granted {a : Access} (hfollows : a.follows = true)
    (h : d.refusal a p = none) : d.access a p = d.locate p := by
  rw [access, h]
  exact if_pos hfollows

theorem access_of_refused {a : Access} {r : Refusal} (h : d.refusal a p = some r) :
    d.access a p = .error (.refused r) := by
  rw [access, h]

theorem access_eq_ok_iff {a : Access} {found : Located} (hfollows : a.follows = true) :
    d.access a p = .ok found ↔ d.refusal a p = none ∧ d.locate p = .ok found := by
  cases h : d.refusal a p with
  | none => rw [access_of_granted hfollows h, and_iff_right rfl]
  | some r => simp [access_of_refused h]

theorem read_eq_ok_iff : d.read p = .ok content ↔
    d.refusal .read p = none ∧ d.HasFile p content := by
  have hfound : d.read p = .ok content ↔
      ∃ place, d.access .read p = .ok (.node place (.file content)) := by
    rw [read]
    split <;> simp_all
  simp only [hfound, access_eq_ok_iff (a := .read) rfl, exists_and_left, HasFile]

/-- A write puts a file where its path ends. -/
theorem placed_of_write (h : d.write p content = .ok d') :
    d.refusal .write p = none ∧ ∃ place, EndsAt (d.locate p) place ∧
      d.Placed d' place (.file content) := by
  have hleaf : ∀ next rest, (FileTree.file content).at? (next :: rest) = none := fun _ _ => rfl
  rw [write] at h
  split at h
  · rename_i place old hfound
    obtain ⟨hgranted, hlocate⟩ := (access_eq_ok_iff rfl).mp hfound
    obtain rfl := Except.ok.inj h
    have hold : d.tree.at? place = some (.file old) := holds_goWithin hlocate
    refine ⟨hgranted, place, ⟨_, hlocate, rfl⟩, rfl, rfl, ?_⟩
    cases place using List.reverseRecOn with
    | nil => exact FileTree.placed_root hold
    | append_singleton directory name =>
      refine FileTree.placed_put (FileTree.hasDirectory_of_append hold) hleaf fun other hother => ?_
      rw [hold] at hother
      exact ⟨old, (Option.some.inj hother).symm⟩
  · cases h
  · cases h
  · rename_i directory name hfound
    obtain ⟨hgranted, hlocate⟩ := (access_eq_ok_iff rfl).mp hfound
    obtain rfl := Except.ok.inj h
    obtain ⟨hdirectory, hfree⟩ : (Located.free directory name).Holds d.tree :=
      holds_goWithin hlocate
    refine ⟨hgranted, directory ++ [name], ⟨_, hlocate, rfl⟩, rfl, rfl, ?_⟩
    refine FileTree.placed_put hdirectory hleaf fun other hother => ?_
    rw [hfree] at hother
    cases hother
  · cases h

theorem locate_of_placed {node : FileTree} (hhere : d'.here = d.here)
    (h : d.tree.Placed d'.tree place node) {other : List String} {found : FileTree}
    (hnode : other = place → ∀ text, node ≠ .link text)
    (hfound : d'.tree.at? other = some found) (hends : EndsAt (d.locate p) other) :
    d'.locate p = .ok (.node other found) := by
  rw [locate, Disk.start, hhere]
  exact goWithin_placed h hnode hfound hends

theorem exists_write_of_locate (content : List UInt8) {old : List UInt8}
    (hgranted : d.refusal .write p = none) (h : d.locate p = .ok (.node place (.file old))) :
    ∃ d', d.write p content = .ok d' := by
  rw [write, access_of_granted rfl hgranted, h]
  exact ⟨_, rfl⟩

theorem hasFile_write (h : d.write p content = .ok d') : d'.HasFile p content := by
  obtain ⟨-, place, hends, hplaced⟩ := placed_of_write h
  exact ⟨place, locate_of_placed hplaced.here hplaced.tree (by simp) hplaced.tree.here hends⟩

/-- A write shows in the files that lead to the same place as its path, and in no others. -/
theorem hasFile_write_other (h : d.write q written = .ok d') (hfile : d.HasFile p content) :
    (d'.SameFile p q → d'.HasFile p written) ∧ (¬ d'.SameFile p q → d'.HasFile p content) := by
  obtain ⟨place, hlocate⟩ := hfile
  obtain ⟨-, target, hends, hplaced⟩ := placed_of_write h
  have hwritten := locate_of_placed hplaced.here hplaced.tree (by simp) hplaced.tree.here hends
  have hplace : EndsAt (d.locate p) place := ⟨_, hlocate, rfl⟩
  by_cases hover : target = place
  · subst hover
    have hp := locate_of_placed hplaced.here hplaced.tree (by simp) hplaced.tree.here hplace
    exact ⟨fun _ => ⟨target, hp⟩, fun hapart => absurd ⟨target, written, hp, hwritten⟩ hapart⟩
  · have hold : d.tree.at? place = some (.file content) := holds_goWithin hlocate
    have hp := locate_of_placed hplaced.here hplaced.tree (by simp) (hplaced.tree.at?_file (Ne.symm hover) hold)
      hplace
    refine ⟨?_, fun _ => ⟨place, hp⟩⟩
    rintro ⟨both, shown, hfirst, hsecond⟩
    rw [hp, Except.ok.injEq, Located.node.injEq] at hfirst
    rw [hwritten, Except.ok.injEq, Located.node.injEq] at hsecond
    exact absurd (hsecond.1.trans hfirst.1.symm) hover

end ModuleGraph.Disk
