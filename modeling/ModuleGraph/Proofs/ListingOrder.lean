import ModuleGraph.FileTree.Walk
import ModuleGraph.Proofs.WrittenFile

/-! The order in which directories list their entries does not matter to paths: where one leads
depends only on what a look-up finds at each place. -/

namespace ModuleGraph

/-- Two walks end alike: in the same way, or in the same place at directories. -/
def EndAlike (x y : Except AccessFault Located) : Prop :=
  x = y ∨ ∃ place entries entries', x = .ok (.node place (.directory entries)) ∧
    y = .ok (.node place (.directory entries'))

section Walk

variable {t t' : FileTree} {follow : Bool} {start parts : List String}
variable {again again' : List String → List String → Except AccessFault Located}

theorem goAlong_alike (h : ∀ place, FileTree.Alike (t.at? place) (t'.at? place))
    (hagain : ∀ start parts, EndAlike (again start parts) (again' start parts)) :
    EndAlike (goAlong t follow again start parts) (goAlong t' follow again' start parts) := by
  induction parts generalizing start with
  | nil =>
    rw [goAlong, goAlong]
    rcases h start with he | ⟨entries, entries', he, he'⟩
    · rw [he]
      exact .inl rfl
    · rw [he, he']
      exact .inr ⟨start, entries, entries', rfl, rfl⟩
  | cons part rest ih =>
    rcases goAlong_part part with ⟨move, hmove⟩ | hlong | hname
    · rw [hmove, hmove]
      exact ih
    · rw [hlong, hlong]
      exact .inl rfl
    rw [goAlong_name hname, goAlong_name hname]
    rcases h (start ++ [part]) with he | ⟨entries, entries', he, he'⟩
    · rw [← he]
      cases t.at? (start ++ [part]) with
      | none =>
        rcases h start with hstart | ⟨entries, entries', hstart, hstart'⟩
        · rw [hstart]
          exact .inl rfl
        · rw [hstart, hstart']
          exact .inl rfl
      | some next =>
        cases next with
        | file content => exact .inl rfl
        | directory entries => exact ih
        | link text =>
          dsimp only
          split
          · exact .inl rfl
          · exact hagain _ _
    · rw [he, he']
      exact ih

theorem goWithin_alike (h : ∀ place, FileTree.Alike (t.at? place) (t'.at? place)) (limit : Nat) :
    EndAlike (goWithin t follow limit start parts) (goWithin t' follow limit start parts) := by
  induction limit generalizing start parts with
  | zero => exact .inl rfl
  | succ limit ih => exact goAlong_alike h fun _ _ => ih

end Walk

namespace Disk

/-- A path shows the same on two disks, up to the entries of a directory. -/
def LooksAlike (d d' : Disk) (a : Access) (p : Path) : Prop :=
  d'.node? a p = d.node? a p ∨ ∃ entries entries',
    d.node? a p = .ok (some (.directory entries)) ∧
      d'.node? a p = .ok (some (.directory entries'))

/-- Both disks list the directory at a path, or both fail alike. -/
def ListsAlike (d d' : Disk) (p : Path) : Prop :=
  d'.readDirectory p = d.readDirectory p ∨ ∃ entries entries',
    d.readDirectory p = .ok entries ∧ d'.readDirectory p = .ok entries'

/-- The same disk, up to the order in which its directories list their entries. -/
structure SameLookups (d d' : Disk) : Prop where
  here : d'.here = d.here
  refusal : d'.refusal = d.refusal
  alike : ∀ place, FileTree.Alike (d.tree.at? place) (d'.tree.at? place)

variable {d d' : Disk} {p : Path}

theorem LooksAlike.contains (h : d.LooksAlike d' .look p) : d'.contains p = d.contains p := by
  rw [Disk.contains, Disk.contains]
  rcases h with he | ⟨entries, entries', he, he'⟩
  · rw [he]
  · rw [he, he']
    rfl

theorem LooksAlike.isDirectory (h : d.LooksAlike d' .look p) :
    d'.isDirectory p = d.isDirectory p := by
  rw [Disk.isDirectory, Disk.isDirectory]
  rcases h with he | ⟨entries, entries', he, he'⟩
  · rw [he]
  · rw [he, he']
    rfl

theorem LooksAlike.isLink (h : d.LooksAlike d' .lookAtEntry p) : d'.isLink p = d.isLink p := by
  rw [Disk.isLink, Disk.isLink]
  rcases h with he | ⟨entries, entries', he, he'⟩
  · rw [he]
  · rw [he, he']
    rfl

theorem visit_congr {levels : Nat} {excluded accepted : String → Bool} {place : List String}
    (hlook : d.LooksAlike d' .look (p.below place))
    (hentry : d.LooksAlike d' .lookAtEntry (p.below place))
    (hlist : d.isRealDirectory (p.below place) = .ok true → d.ListsAlike d' (p.below place)) :
    d'.visit levels excluded accepted p place = d.visit levels excluded accepted p place := by
  have hreal : d'.isRealDirectory (p.below place) = d.isRealDirectory (p.below place) := by
    rw [isRealDirectory, isRealDirectory, hlook.isDirectory, hentry.isLink]
  rw [visit, visit, hreal]
  split
  · rfl
  cases hfound : d.isRealDirectory (p.below place) with
  | error e => rfl
  | ok isDirectory =>
    cases isDirectory with
    | false => rfl
    | true =>
      rcases hlist hfound with he | ⟨entries, entries', he, he'⟩
      · rw [he]
      · rw [he, he']

theorem SameLookups.locate (h : d.SameLookups d') (p : Path) :
    EndAlike (d.locate p) (d'.locate p) := by
  rw [Disk.locate, Disk.locate, start, start, h.here]
  exact goWithin_alike h.alike _

theorem SameLookups.locateEntry (h : d.SameLookups d') (p : Path) :
    EndAlike (d.locateEntry p) (d'.locateEntry p) := by
  rw [Disk.locateEntry, Disk.locateEntry, start, start, h.here]
  exact goWithin_alike h.alike _

theorem SameLookups.reach (h : d.SameLookups d') (a : Access) (p : Path) :
    EndAlike (d.reach a p) (d'.reach a p) := by
  rw [Disk.reach, Disk.reach]
  split
  · exact h.locate p
  · exact h.locateEntry p

theorem SameLookups.looksAlike (h : d.SameLookups d') (a : Access) (p : Path) :
    d.LooksAlike d' a p := by
  rw [LooksAlike, node?, node?, h.refusal]
  cases d.refusal a p with
  | some r => exact .inl rfl
  | none =>
    rcases h.reach a p with he | ⟨place, entries, entries', he, he'⟩
    · rw [he]
      exact .inl rfl
    · rw [he, he']
      exact .inr ⟨entries, entries', rfl, rfl⟩

theorem SameLookups.listsAlike (h : d.SameLookups d') (p : Path) : d.ListsAlike d' p := by
  rw [ListsAlike, readDirectory, readDirectory, access, access, h.refusal]
  cases d.refusal .list p with
  | some r => exact .inl rfl
  | none =>
    rcases h.reach .list p with he | ⟨place, entries, entries', he, he'⟩
    · rw [he]
      exact .inl rfl
    · rw [he, he']
      exact .inr ⟨entries, entries', rfl, rfl⟩

theorem SameLookups.visit (h : d.SameLookups d') (levels : Nat) (excluded accepted : String → Bool)
    (place : List String) :
    d'.visit levels excluded accepted p place = d.visit levels excluded accepted p place :=
  visit_congr (h.looksAlike .look _) (h.looksAlike .lookAtEntry _) fun _ => h.listsAlike _

end Disk

end ModuleGraph
