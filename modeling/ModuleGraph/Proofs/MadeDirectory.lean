import ModuleGraph.FileTree.Making
import ModuleGraph.Proofs.WrittenFile

/-! What making directories leaves alone, whether or not it succeeds: every file and every link, and
what led to a file still does. -/

namespace ModuleGraph

/-- A new directory is seen neither by files nor by links. -/
theorem FileTree.Placed.at?_leaf_iff {t t' leaf : FileTree} {place other : List String}
    (h : t.Placed t' place .empty) (hvacant : t.at? place = none)
    (hleaf : ∀ entries, leaf ≠ .directory entries) :
    t'.at? other = some leaf ↔ t.at? other = some leaf := by
  by_cases hother : other = place
  · subst hother
    rw [h.here, hvacant]
    refine ⟨fun he => ?_, fun he => nomatch he⟩
    exact absurd (Option.some.inj he).symm (hleaf [])
  · have halike := h.elsewhere other hother
    have hsome : ∀ entries, some leaf ≠ some (FileTree.directory entries) := fun entries he =>
      hleaf entries (Option.some.inj he)
    exact ⟨fun he => (halike.symm.eq_of_leaf (he ▸ hsome)).trans he,
      fun he => (halike.eq_of_leaf (he ▸ hsome)).trans he⟩

namespace Disk

variable {d d' d'' : Disk} {p : Path}

/-- Two disks that differ in directories only. Whatever leads to a file of the first leads to the
same file of the second. -/
structure KeepsLeaves (d d' : Disk) : Prop where
  refusal : d'.refusal = d.refusal
  at?_leaf : ∀ place leaf, (∀ entries, leaf ≠ .directory entries) →
    (d'.tree.at? place = some leaf ↔ d.tree.at? place = some leaf)
  locate_file : ∀ p place content, d.locate p = .ok (.node place (.file content)) →
    d'.locate p = .ok (.node place (.file content))

theorem KeepsLeaves.refl (d : Disk) : d.KeepsLeaves d :=
  ⟨rfl, fun _ _ _ => Iff.rfl, fun _ _ _ => id⟩

theorem KeepsLeaves.trans (h : d.KeepsLeaves d') (h' : d'.KeepsLeaves d'') : d.KeepsLeaves d'' where
  refusal := h'.refusal.trans h.refusal
  at?_leaf place leaf hleaf := (h'.at?_leaf place leaf hleaf).trans (h.at?_leaf place leaf hleaf)
  locate_file p place content hp :=
    h'.locate_file p place content (h.locate_file p place content hp)

theorem KeepsLeaves.at?_file (h : d.KeepsLeaves d') (place : List String) (content : List UInt8) :
    d'.tree.at? place = some (.file content) ↔ d.tree.at? place = some (.file content) :=
  h.at?_leaf place (.file content) fun _ he => nomatch he

theorem KeepsLeaves.read (h : d.KeepsLeaves d') {content : List UInt8}
    (hread : d.read p = .ok content) : d'.read p = .ok content := by
  obtain ⟨hgranted, place, hplace⟩ := read_eq_ok_iff.mp hread
  exact read_eq_ok_iff.mpr
    ⟨h.refusal ▸ hgranted, place, h.locate_file p place content hplace⟩

/-- A directory is made at a place where nothing was. -/
theorem placed_of_makeDirectory (h : d.makeDirectory p = .ok d') :
    ∃ place, d.tree.at? place = none ∧ d.Placed d' place .empty := by
  rw [makeDirectory] at h
  split at h
  · cases h
  · rename_i directory name haccess
    obtain rfl := Except.ok.inj h
    have hlocate : d.locateEntry p = .ok (.free directory name) := by
      rw [access] at haccess
      split at haccess
      · cases haccess
      · exact haccess
    obtain ⟨hdirectory, hfree⟩ : (Located.free directory name).Holds d.tree :=
      holds_goWithin hlocate
    refine ⟨directory ++ [name], hfree, rfl, rfl, ?_⟩
    refine FileTree.placed_put hdirectory (fun _ _ => rfl) fun other hother => ?_
    rw [hfree] at hother
    cases hother
  · cases h
  · cases h

theorem keepsLeaves_makeDirectory (h : d.makeDirectory p = .ok d') : d.KeepsLeaves d' := by
  obtain ⟨made, hvacant, hplaced⟩ := placed_of_makeDirectory h
  refine ⟨hplaced.refusal, fun place leaf => hplaced.tree.at?_leaf_iff hvacant,
    fun q place content hq => ?_⟩
  have hfile : d.tree.at? place = some (.file content) := holds_goWithin hq
  have hkept := (hplaced.tree.at?_leaf_iff hvacant (by simp)).mpr hfile
  exact locate_of_placed hplaced.here hplaced.tree (by simp [FileTree.empty]) hkept ⟨_, hq, rfl⟩

/-- Making a directory with all that it needs, whether or not it succeeds. -/
theorem keepsLeaves_ensureParts (d : Disk) (root : String) (parents : Nat) (parts : List String) :
    d.KeepsLeaves (d.ensureParts root parents parts).1 := by
  induction parts generalizing d parents with
  | nil =>
    rw [ensureParts]
    split
    · rename_i made hmade
      exact keepsLeaves_makeDirectory hmade
    · exact .refl d
  | cons name above ih =>
    unfold ensureParts
    dsimp only
    split
    · rename_i made hmade
      exact keepsLeaves_makeDirectory hmade
    split
    case isFalse => exact .refl d
    cases parents with
    | zero => exact .refl d
    | succ parents =>
      -- The directories above are made first, and then this one is tried again.
      have habove := ih d parents
      dsimp only
      split
      · rename_i made failure hmade
        rw [hmade] at habove
        exact habove
      · rename_i made hmade
        rw [hmade] at habove
        split
        · rename_i last hlast
          exact habove.trans (keepsLeaves_makeDirectory hlast)
        · exact habove

theorem keepsLeaves_ensureDirectory (d : Disk) (parents : Nat) (p : Path) :
    d.KeepsLeaves (d.ensureDirectory parents p).1 :=
  keepsLeaves_ensureParts d p.root parents p.parts.reverse

end Disk

end ModuleGraph
