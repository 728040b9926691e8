import ModuleGraph.Proofs.DirectPath
import ModuleGraph.Proofs.VisitedPlaces

/-! Where a walk stops: at a place that is nested too deeply or cannot be looked up, and at a
directory that is to be entered and cannot be listed. -/

namespace ModuleGraph.Disk

/-- An entry cannot be looked up: the system refuses it, or it is a link to a name that is too
long, or it leads to a directory and the system refuses to say whether it is a link. -/
inductive Unseen (d : Disk) (p : Path) : AccessError → Prop
  | refused {r : Refusal} (h : d.refusal .look p = some r) : Unseen d p ⟨.refused r, p⟩
  | overlong (hgranted : d.refusal .look p = none) (h : d.locate p = .error .nameTooLong) :
    Unseen d p ⟨.nameTooLong, p⟩
  | entryRefused {r : Refusal} (hdirectory : d.isDirectory p = .ok true)
    (h : d.refusal .lookAtEntry p = some r) : Unseen d p ⟨.refused r, p⟩

/-- A walk over the entries of the directory at `p` comes to a place and stops there. -/
inductive StopsAt (d : Disk) (levels : Nat) (excluded : String → Bool) (p : Path)
    (entries : List (String × FileTree)) (place : List String) : WalkEnd → Prop
  | tooDeep (hvisits : (FileTree.directory entries).Visits excluded place)
    (h : levels < place.length) : StopsAt d levels excluded p entries place .tooDeep
  | unseen {e : AccessError} (hvisits : (FileTree.directory entries).Visits excluded place)
    (hlevels : place.length ≤ levels) (h : d.Unseen (p.below place) e) :
    StopsAt d levels excluded p entries place (.unseen e)
  | unlisted {r : Refusal} (hvisits : (FileTree.directory entries).Visits excluded place)
    (hlevels : place.length ≤ levels) (hseen : ∀ e, ¬ d.Unseen (p.below place) e)
    (hdirectory : (FileTree.directory entries).HasDirectory place)
    (hentered : excluded (p.below place).name = false)
    (h : d.refusal .list (p.below place) = some r) :
    StopsAt d levels excluded p entries place (.unlisted ⟨.refused r, p.below place⟩)

variable {d : Disk} {levels : Nat} {excluded accepted : String → Bool} {p : Path}
variable {entries : List (String × FileTree)} {place : List String}

theorem StopsAt.visits {e : WalkEnd} (h : d.StopsAt levels excluded p entries place e) :
    (FileTree.directory entries).Visits excluded place := by
  cases h <;> assumption

theorem StopsAt.path_eq {e : AccessError}
    (h : d.StopsAt levels excluded p entries place (.unlisted e)) : e.path = p.below place := by
  cases h
  rfl

theorem isRealDirectory_eq_ok_iff {answer : Bool} : d.isRealDirectory p = .ok answer ↔
    d.isDirectory p = .ok false ∧ answer = false ∨
      d.isDirectory p = .ok true ∧ d.isLink p = .ok !answer := by
  rw [isRealDirectory]
  cases d.isDirectory p with
  | error e => simp
  | ok isDirectory =>
    cases isDirectory with
    | false => simp [eq_comm]
    | true => cases d.isLink p <;> simp [Bool.not_eq_eq_eq_not]

theorem isRealDirectory_eq_error_iff {e : AccessError}
    (hentry : d.reach .lookAtEntry p ≠ .error .nameTooLong) :
    d.isRealDirectory p = .error e ↔ d.Unseen p e := by
  have hlink : d.isLink p = .error e ↔
      ∃ r, d.refusal .lookAtEntry p = some r ∧ e = ⟨.refused r, p⟩ := by
    rw [isLink_eq_error_iff, node?_eq_error_iff]
    exact or_iff_left fun h => hentry h.2.1
  rw [isRealDirectory]
  constructor
  · intro h
    split at h
    · rename_i hdirectory
      have hfails : d.isLink p = .error e := by
        cases hfound : d.isLink p with
        | error e' => rw [hfound] at h; exact h
        | ok answer => rw [hfound] at h; cases h
      obtain ⟨r, hr, rfl⟩ := hlink.mp hfails
      exact .entryRefused hdirectory hr
    · rcases node?_eq_error_iff.mp (isDirectory_eq_error_iff.mp h) with
        ⟨r, hr, rfl⟩ | ⟨hgranted, hlong, rfl⟩
      · exact .refused hr
      · exact .overlong hgranted hlong
  · intro h
    cases h with
    | refused h =>
      rw [isDirectory_eq_error_iff.mpr (node?_eq_error_iff.mpr (.inl ⟨_, h, rfl⟩))]
    | overlong hgranted h =>
      rw [isDirectory_eq_error_iff.mpr (node?_eq_error_iff.mpr (.inr ⟨hgranted, h, rfl⟩))]
    | entryRefused hdirectory h =>
      rw [hdirectory, hlink.mpr ⟨_, h, rfl⟩]
      rfl

theorem proper_of_readDirectory (hproper : d.tree.Proper) (h : d.readDirectory p = .ok entries) :
    (FileTree.directory entries).Proper := by
  obtain ⟨-, found, hfound⟩ := readDirectory_eq_ok_iff.mp h
  exact hproper.at? (holds_goWithin hfound)

theorem visit_fails_iff {e : WalkEnd} : d.visit levels excluded accepted p place = .error e ↔
    levels < place.length ∧ e = .tooDeep ∨
    place.length ≤ levels ∧
      ((∃ fault, d.isRealDirectory (p.below place) = .error fault ∧ e = .unseen fault) ∨
        d.isRealDirectory (p.below place) = .ok true ∧ excluded (p.below place).name = false ∧
          ∃ fault, d.readDirectory (p.below place) = .error fault ∧ e = .unlisted fault) := by
  rw [visit]
  by_cases hlevels : levels < place.length
  · simpa [hlevels, Nat.not_le.mpr hlevels] using eq_comm
  rw [if_neg hlevels]
  cases d.isRealDirectory (p.below place) with
  | error fault => simpa [hlevels, Nat.not_lt.mp hlevels] using eq_comm
  | ok isDirectory =>
    cases isDirectory with
    | false => simp [hlevels]
    | true =>
      cases excluded (p.below place).name with
      | true => simp [hlevels]
      | false =>
        cases d.readDirectory (p.below place) with
        | error fault => simpa [hlevels, Nat.not_lt.mp hlevels] using eq_comm
        | ok inside => simp [hlevels]

section Visit

variable (hproper : d.tree.Proper) (hstart : d.readDirectory p = .ok entries)
  (hvisits : (FileTree.directory entries).Visits excluded place)

include hproper hstart hvisits

theorem exists_entry_of_visits : ∃ found node, (FileTree.directory entries).at? place = some node ∧
    d.reach .lookAtEntry (p.below place) = .ok (.node found node) ∧
    ((∀ text, node ≠ .link text) → d.reach .look (p.below place) = .ok (.node found node)) := by
  obtain ⟨hplace, node, hnode⟩ := hvisits.isEntry
  obtain ⟨-, found, hlocate⟩ := readDirectory_eq_ok_iff.mp hstart
  have hfound : d.tree.at? found = some (.directory entries) := holds_goWithin hlocate
  have hthere : d.tree.at? (found ++ place) = some node := by
    rw [FileTree.at?_append, hfound]
    exact hnode
  have hnames := (proper_of_readDirectory hproper hstart).isName place node hnode
  exact ⟨found ++ place, node, hnode, locateEntry_below hlocate hthere hplace hnames,
    fun hlink => locate_below hlocate hthere hlink hnames⟩

/-- A walk goes on below a place only if there is a directory, not a link to one. -/
theorem isRealDirectory_eq_ok {answer : Bool}
    (h : d.isRealDirectory (p.below place) = .ok answer) :
    answer = true ↔ (FileTree.directory entries).HasDirectory place := by
  obtain ⟨found, node, hnode, hentry, hfollow⟩ := exists_entry_of_visits hproper hstart hvisits
  rcases isRealDirectory_eq_ok_iff.mp h with ⟨hlook, rfl⟩ | ⟨hlook, hlink⟩
  · obtain ⟨shown, hshown, hdirectory⟩ := isDirectory_eq_ok_iff.mp hlook
    refine iff_of_false (by simp) ?_
    rintro ⟨inside, hinside⟩
    obtain rfl : node = .directory inside := Option.some.inj (hnode.symm.trans hinside)
    obtain rfl := eq_of_node?_eq_ok (hfollow (by simp)) hshown
    exact absurd (hdirectory.mpr ⟨inside, rfl⟩) (by simp)
  · obtain ⟨shown, hshown, hdirectory⟩ := isDirectory_eq_ok_iff.mp hlook
    obtain ⟨entry, hentry', hislink⟩ := isLink_eq_ok_iff.mp hlink
    obtain rfl := eq_of_node?_eq_ok hentry hentry'
    cases answer with
    | false =>
      obtain ⟨text, htext⟩ := hislink.mp rfl
      obtain rfl := Option.some.inj htext
      simp [FileTree.HasDirectory, hnode]
    | true =>
      have hnolink : ∀ text, node ≠ .link text := by
        rintro text rfl
        exact absurd (hislink.mpr ⟨text, rfl⟩) (by simp)
      obtain rfl := eq_of_node?_eq_ok (hfollow hnolink) hshown
      obtain ⟨inside, hinside⟩ := hdirectory.mp rfl
      exact iff_of_true rfl ⟨inside, hnode.trans hinside⟩

theorem readDirectory_below_eq_error_iff {e : AccessError}
    (hdirectory : (FileTree.directory entries).HasDirectory place) :
    d.readDirectory (p.below place) = .error e ↔
      ∃ r, d.refusal .list (p.below place) = some r ∧ e = ⟨.refused r, p.below place⟩ := by
  obtain ⟨found, node, hnode, -, hfollow⟩ := exists_entry_of_visits hproper hstart hvisits
  obtain ⟨inside, hinside⟩ := hdirectory
  obtain rfl : node = .directory inside := Option.some.inj (hnode.symm.trans hinside)
  rcases readDirectory_of_locate (hfollow (by simp)) with ⟨hok, hgranted⟩ | ⟨r, hr, he⟩
  · simp [hok, hgranted]
  · simp [he, hr, eq_comm]

theorem visit_eq_error_iff {e : WalkEnd} : d.visit levels excluded accepted p place = .error e ↔
    d.StopsAt levels excluded p entries place e := by
  obtain ⟨found, node, -, hentry, -⟩ := exists_entry_of_visits hproper hstart hvisits
  have hunseen : ∀ {fault}, d.isRealDirectory (p.below place) = .error fault ↔
      d.Unseen (p.below place) fault :=
    isRealDirectory_eq_error_iff (by rw [hentry]; simp)
  have hreal : d.isRealDirectory (p.below place) = .ok true ↔
      (∀ fault, ¬ d.Unseen (p.below place) fault) ∧
        (FileTree.directory entries).HasDirectory place := by
    simp only [← hunseen]
    cases hlook : d.isRealDirectory (p.below place) with
    | error fault => simp
    | ok answer => simp [← isRealDirectory_eq_ok hproper hstart hvisits hlook]
  rw [visit_fails_iff, hreal]
  constructor
  · rintro (⟨hdeep, rfl⟩ | ⟨hlevels, ⟨fault, hlook, rfl⟩ |
      ⟨⟨hseen, hdirectory⟩, hentered, fault, hlist, rfl⟩⟩)
    · exact .tooDeep hvisits hdeep
    · exact .unseen hvisits hlevels (hunseen.mp hlook)
    · obtain ⟨r, hr, rfl⟩ :=
        (readDirectory_below_eq_error_iff hproper hstart hvisits hdirectory).mp hlist
      exact .unlisted hvisits hlevels hseen hdirectory hentered hr
  · rintro (⟨-, hdeep⟩ | ⟨-, hlevels, h⟩ | ⟨-, hlevels, hseen, hdirectory, hentered, h⟩)
    · exact .inl ⟨hdeep, rfl⟩
    · exact .inr ⟨hlevels, .inl ⟨_, hunseen.mpr h, rfl⟩⟩
    · have hlist := (readDirectory_below_eq_error_iff hproper hstart hvisits hdirectory).mpr
        ⟨_, h, rfl⟩
      exact .inr ⟨hlevels, .inr ⟨⟨hseen, hdirectory⟩, hentered, _, hlist, rfl⟩⟩

theorem visit_eq_true_iff : d.visit levels excluded accepted p place = .ok true ↔
    (∀ e, ¬ d.StopsAt levels excluded p entries place e) ∧
      ¬ (FileTree.directory entries).HasDirectory place ∧
      accepted (p.below place).name = true := by
  have hstops : ∀ e, d.visit levels excluded accepted p place = .error e ↔ _ := fun _ =>
    visit_eq_error_iff hproper hstart hvisits
  simp only [← hstops]
  have hdirectory : ∀ {answer}, d.isRealDirectory (p.below place) = .ok answer →
      (answer = true ↔ (FileTree.directory entries).HasDirectory place) :=
    isRealDirectory_eq_ok hproper hstart hvisits
  rw [visit]
  split
  · simp
  cases hlook : d.isRealDirectory (p.below place) with
  | error e => simp
  | ok answer =>
    rw [← hdirectory hlook]
    cases answer with
    | false => simp
    | true =>
      dsimp only
      split
      · simp
      split <;> simp

/-- Only a link is too long to look at, by what it leads to. -/
theorem StopsAt.isLink {q : Path}
    (h : d.StopsAt levels excluded p entries place (.unseen ⟨.nameTooLong, q⟩)) :
    ∃ target, (FileTree.directory entries).at? place = some (.link target) := by
  obtain ⟨found, node, hnode, -, hfollow⟩ := exists_entry_of_visits hproper hstart hvisits
  cases h with
  | unseen _ _ h =>
    cases h with
    | overlong _ h =>
      by_contra hlink
      have hfound := hfollow fun text he => hlink ⟨text, he ▸ hnode⟩
      have hlocate : d.reach .look (p.below place) = .error .nameTooLong := h
      rw [hlocate] at hfound
      cases hfound

end Visit

end ModuleGraph.Disk
