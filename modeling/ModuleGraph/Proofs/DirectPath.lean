import ModuleGraph.Proofs.WrittenFile

/-! Paths that go on below a directory. Where they lead can be read off the tree at the place of
the directory, and they follow no link that the directory's own path does not follow. So a look at
what is there, and a listing of a directory, fail only if the system refuses them. -/

namespace ModuleGraph

section Walk

variable {t node : FileTree} {start place : List String} {follow : Bool}

theorem goAlong_below {again : List String → List String → Except AccessFault Located}
    (h : t.at? (start ++ place) = some node) (hlink : ∀ text, node = .link text → follow = false)
    (hnames : ∀ name ∈ place, IsName name) :
    goAlong t follow again start place = .ok (.node (start ++ place) node) := by
  induction place generalizing start with
  | nil =>
    rw [List.append_nil] at h ⊢
    rw [goAlong, h]
  | cons name rest ih =>
    have hname : IsName name := hnames name List.mem_cons_self
    have hsplit : start ++ name :: rest = start ++ [name] ++ rest := by simp
    rw [hsplit] at h ⊢
    cases rest with
    | nil =>
      rw [List.append_nil] at h ⊢
      exact goAlong_last hname h hlink
    | cons next rest =>
      obtain ⟨entries, hdirectory⟩ := FileTree.hasDirectory_of_append h
      rw [goAlong_name hname, hdirectory]
      exact ih h fun other hother => hnames other (List.mem_cons_of_mem _ hother)

/-- A path that goes on below a directory is walked on from there, with the links that are
left to follow. -/
theorem goWithin_append (follow : Bool) {limit : Nat} {parts found : List String}
    {entries : List (String × FileTree)}
    (h : goWithin t true limit start parts = .ok (.node found (.directory entries)))
    (rest : List String) (hrest : follow = false → rest ≠ []) :
    ∃ left, goWithin t follow limit start (parts ++ rest) =
      goAlong t follow (goWithin t follow left) found rest := by
  induction limit generalizing start parts with
  | zero => cases h
  | succ limit ih =>
    rw [goWithin] at h ⊢
    induction parts generalizing start with
    | nil =>
      rw [goAlong] at h
      split at h
      · obtain ⟨rfl, -⟩ := Located.node.inj (Except.ok.inj h)
        exact ⟨limit, rfl⟩
      · cases h
    | cons part parts ihparts =>
      rw [List.cons_append]
      rcases goAlong_part part with ⟨move, hmove⟩ | hlong | hname
      · rw [hmove] at h ⊢
        exact ihparts h
      · rw [hlong] at h
        cases h
      rw [goAlong_name hname] at h ⊢
      cases hnext : t.at? (start ++ [part]) with
      | none =>
        rw [hnext] at h
        dsimp only at h
        split at h
        · split at h <;> cases h
        · rw [stopped] at h
          split at h <;> cases h
      | some next =>
        rw [hnext] at h
        cases next with
        | file content =>
          dsimp only at h
          split at h
          · cases h
          · rw [stopped] at h
            split at h <;> cases h
        | directory siblings => exact ihparts h
        | link text =>
          -- A link is followed if it was the last part, and also if more parts come after it.
          have hmore : ¬ ((parts ++ rest).isEmpty && !follow) = true := by
            cases follow with
            | true => simp
            | false => simp [hrest rfl]
          simp only [Bool.not_true, Bool.and_false, Bool.false_eq_true, if_false] at h
          dsimp only
          rw [if_neg hmore, ← List.append_assoc]
          exact ih h

end Walk

namespace Disk

variable {d : Disk} {p : Path} {place found : List String} {entries : List (String × FileTree)}
variable {node : FileTree} {e : AccessError}

theorem readDirectory_eq_ok_iff : d.readDirectory p = .ok entries ↔
    d.refusal .list p = none ∧ ∃ found, d.locate p = .ok (.node found (.directory entries)) := by
  have hlisted : d.readDirectory p = .ok entries ↔
      ∃ found, d.access .list p = .ok (.node found (.directory entries)) := by
    rw [readDirectory]
    split <;> simp_all
  simp only [hlisted, access_eq_ok_iff (a := .list) rfl, exists_and_left]

/-- A directory is listed unless the system refuses it. -/
theorem readDirectory_of_locate (h : d.locate p = .ok (.node found (.directory entries))) :
    d.readDirectory p = .ok entries ∧ d.refusal .list p = none ∨
      ∃ r, d.refusal .list p = some r ∧ d.readDirectory p = .error ⟨.refused r, p⟩ := by
  cases hrefusal : d.refusal .list p with
  | none => exact .inl ⟨readDirectory_eq_ok_iff.mpr ⟨hrefusal, found, h⟩, rfl⟩
  | some r => exact .inr ⟨r, rfl, by rw [readDirectory, access_of_refused hrefusal]⟩

theorem locate_below (h : d.locate p = .ok (.node found (.directory entries)))
    (hnode : d.tree.at? (found ++ place) = some node) (hlink : ∀ text, node ≠ .link text)
    (hnames : ∀ name ∈ place, IsName name) :
    d.locate (p.below place) = .ok (.node (found ++ place) node) := by
  obtain ⟨left, hleft⟩ := goWithin_append true h place (by simp)
  exact hleft.trans (goAlong_below hnode (fun text he => absurd he (hlink text)) hnames)

theorem locateEntry_below (h : d.locate p = .ok (.node found (.directory entries)))
    (hnode : d.tree.at? (found ++ place) = some node) (hplace : place ≠ [])
    (hnames : ∀ name ∈ place, IsName name) :
    d.locateEntry (p.below place) = .ok (.node (found ++ place) node) := by
  obtain ⟨left, hleft⟩ := goWithin_append false h place fun _ => hplace
  exact hleft.trans (goAlong_below hnode (fun _ _ => rfl) hnames)

/-- A look fails only if it is refused or the path has a name that is too long. -/
theorem node?_eq_error_iff {a : Access} : d.node? a p = .error e ↔
    (∃ r, d.refusal a p = some r ∧ e = ⟨.refused r, p⟩) ∨
      d.refusal a p = none ∧ d.reach a p = .error .nameTooLong ∧ e = ⟨.nameTooLong, p⟩ := by
  rw [node?]
  cases d.refusal a p with
  | some r => simp [eq_comm]
  | none =>
    cases hreach : d.reach a p with
    | ok found => cases found <;> simp
    | error fault => cases fault <;> simp [eq_comm]

theorem isDirectory_eq_error_iff : d.isDirectory p = .error e ↔ d.node? .look p = .error e := by
  rw [isDirectory]
  cases d.node? .look p <;> simp

theorem isLink_eq_error_iff : d.isLink p = .error e ↔ d.node? .lookAtEntry p = .error e := by
  rw [isLink]
  cases d.node? .lookAtEntry p <;> simp

theorem node?_of_reach {a : Access} (h : d.reach a p = .ok (.node found node))
    (hgranted : d.refusal a p = none) : d.node? a p = .ok (some node) := by
  rw [node?, hgranted, h]

theorem eq_of_node?_eq_ok {a : Access} {shown : Option FileTree}
    (h : d.reach a p = .ok (.node found node)) (hshown : d.node? a p = .ok shown) :
    shown = some node := by
  rw [node?, h] at hshown
  cases hrefusal : d.refusal a p with
  | some r => rw [hrefusal] at hshown; cases hshown
  | none =>
    rw [hrefusal] at hshown
    exact (Except.ok.inj hshown).symm

theorem isDirectory_eq_ok_iff {answer : Bool} : d.isDirectory p = .ok answer ↔
    ∃ shown, d.node? .look p = .ok shown ∧
      (answer = true ↔ ∃ entries, shown = some (.directory entries)) := by
  rw [isDirectory]
  cases d.node? .look p with
  | error e => simp
  | ok shown => rcases shown with - | ⟨- | - | -⟩ <;> cases answer <;> simp

theorem isLink_eq_ok_iff {answer : Bool} : d.isLink p = .ok answer ↔
    ∃ shown, d.node? .lookAtEntry p = .ok shown ∧
      (answer = true ↔ ∃ text, shown = some (.link text)) := by
  rw [isLink]
  cases d.node? .lookAtEntry p with
  | error e => simp
  | ok shown => rcases shown with - | ⟨- | - | -⟩ <;> cases answer <;> simp

end Disk

end ModuleGraph
