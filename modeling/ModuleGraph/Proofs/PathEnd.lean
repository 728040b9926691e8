import ModuleGraph.FileTree.Access
import ModuleGraph.Proofs.PlacedNode

/-! Where paths end. A path that led to a place of a tree still leads there after a node has been
put somewhere, and where it ends tells what the tree holds. -/

namespace ModuleGraph

/-- The place of the node or of the free name that a path leads to. -/
def Located.place? : Located → Option (List String)
  | .node place _ => some place
  | .free directory name => some (directory ++ [name])
  | .slashed _ => none

/-- A walk ends at a place, whether or not there is something. -/
def EndsAt (walk : Except AccessFault Located) (place : List String) : Prop :=
  ∃ found, walk = .ok found ∧ found.place? = some place

@[simp] theorem endsAt_ok_iff {found : Located} {place : List String} :
    EndsAt (.ok found) place ↔ found.place? = some place := by
  constructor
  · rintro ⟨other, he, h⟩
    obtain rfl := Except.ok.inj he
    exact h
  · exact fun h => ⟨found, rfl, h⟩

@[simp] theorem not_endsAt_error {fault : AccessFault} {place : List String} :
    ¬ EndsAt (.error fault) place := by
  rintro ⟨found, h, -⟩
  cases h

theorem not_endsAt_stopped (fault : AccessFault) (rest place : List String) :
    ¬ EndsAt (stopped fault rest) place := by
  rw [stopped]
  split <;> simp [Located.place?]

/-- A part that is looked up in a directory. -/
structure IsName (part : String) : Prop where
  isPart : Path.isPart part = true
  ne_up : part ≠ ".."
  short : ¬ nameLimit < part.utf8ByteSize

section Walk

variable {t t' node found : FileTree} {place target start rest : List String} {part : String}
variable {follow : Bool} {again again' : List String → List String → Except AccessFault Located}

theorem goAlong_overlong (hpart : Path.isPart part = true) (hup : part ≠ "..")
    (hlong : nameLimit < part.utf8ByteSize) :
    goAlong t follow again start (part :: rest) = .error .nameTooLong := by
  rw [goAlong, if_neg (by simp [hpart]), if_neg hup, if_pos hlong]

/-- A part that is no name moves every walk in the same way, or it is too long for any tree. -/
theorem goAlong_part (part : String) :
    (∃ move : List String → List String, ∀ t follow again start rest,
      goAlong t follow again start (part :: rest) = goAlong t follow again (move start) rest) ∨
    (∀ t follow again start rest,
      goAlong t follow again start (part :: rest) = .error .nameTooLong) ∨
    IsName part := by
  by_cases hpart : Path.isPart part = true
  case neg =>
    refine .inl ⟨id, fun t follow again start rest => ?_⟩
    rw [goAlong, if_pos (by simp [hpart]), id]
  by_cases hup : part = ".."
  · refine .inl ⟨List.dropLast, fun t follow again start rest => ?_⟩
    rw [goAlong, if_neg (by simp [hpart]), if_pos hup]
  by_cases hlong : nameLimit < part.utf8ByteSize
  · exact .inr (.inl fun _ _ _ _ _ => goAlong_overlong hpart hup hlong)
  · exact .inr (.inr ⟨hpart, hup, hlong⟩)

theorem goAlong_name (h : IsName part) :
    goAlong t follow again start (part :: rest) =
      match t.at? (start ++ [part]) with
      | none =>
        if rest.isEmpty then
          match t.at? start with
          | some (.directory _) => .ok (.free start part)
          | _ => .error .missing
        else stopped .missing rest
      | some (.file content) =>
        if rest.isEmpty then .ok (.node (start ++ [part]) (.file content))
        else stopped .notDirectory rest
      | some (.directory _) => goAlong t follow again (start ++ [part]) rest
      | some (.link text) =>
        if rest.isEmpty && !follow then .ok (.node (start ++ [part]) (.link text))
        else again (linkStart start text).1 ((linkStart start text).2 ++ rest) := by
  rw [goAlong, if_neg (by simp [h.isPart]), if_neg h.ne_up]
  exact if_neg h.short

theorem goAlong_last (h : IsName part) (hfound : t.at? (start ++ [part]) = some found)
    (hlink : ∀ text, found = .link text → follow = false) :
    goAlong t follow again start [part] = .ok (.node (start ++ [part]) found) := by
  rw [goAlong_name h, hfound]
  cases found with
  | file content => rfl
  | link text => exact if_pos (by simp [hlink text rfl])
  | directory entries =>
    dsimp only
    rw [goAlong, hfound]

/-- A walk that ends at a place of the tree before a node is put somewhere ends there afterwards,
with whatever is there then, unless this is a link that was put there. -/
theorem goAlong_placed (h : t.Placed t' place node)
    (hnode : target = place → ∀ text, node ≠ .link text) (hfound : t'.at? target = some found)
    (hagain : ∀ start parts, EndsAt (again start parts) target →
      again' start parts = .ok (.node target found))
    {parts : List String} (hends : EndsAt (goAlong t follow again start parts) target) :
    goAlong t' follow again' start parts = .ok (.node target found) := by
  induction parts generalizing start with
  | nil =>
    rw [goAlong] at hends
    split at hends
    · obtain rfl : start = target := by simpa [Located.place?] using hends
      rw [goAlong, hfound]
    · exact absurd hends not_endsAt_error
  | cons part rest ih =>
    rcases goAlong_part part with ⟨move, hmove⟩ | hlong | hname
    · rw [hmove] at hends ⊢
      exact ih hends
    · rw [hlong] at hends
      exact absurd hends not_endsAt_error
    -- The walk ends with this part if there was no node to go on from.
    have hlast : (∀ text, t.at? (start ++ [part]) ≠ some (.link text)) → rest = [] →
        start ++ [part] = target →
        goAlong t' follow again' start (part :: rest) = .ok (.node target found) := by
      rintro hold rfl rfl
      refine goAlong_last hname hfound fun text he => ?_
      exact absurd (h.at?_old_link hnode (he ▸ hfound)) (hold text)
    rw [goAlong_name hname] at hends
    cases hold : t.at? (start ++ [part]) with
    | none =>
      rw [hold] at hends
      dsimp only at hends
      split at hends
      · rename_i hrest
        have hplace : start ++ [part] = target := by
          split at hends
          · simpa [Located.place?] using hends
          · exact absurd hends not_endsAt_error
        exact hlast (by simp [hold]) (List.isEmpty_iff.mp hrest) hplace
      · exact absurd hends (not_endsAt_stopped _ _ _)
    | some old =>
      rw [hold] at hends
      cases old with
      | file content =>
        dsimp only at hends
        split at hends
        · rename_i hrest
          have hplace : start ++ [part] = target := by simpa [Located.place?] using hends
          exact hlast (by simp [hold]) (List.isEmpty_iff.mp hrest) hplace
        · exact absurd hends (not_endsAt_stopped _ _ _)
      | directory entries =>
        obtain ⟨entries', hnext⟩ := h.hasDirectory ⟨entries, hold⟩
        rw [goAlong_name hname, hnext]
        exact ih hends
      | link text =>
        -- The link is still there, and the walk goes on behind it as before.
        have hnext := h.at?_link hold
        rw [goAlong_name hname, hnext]
        dsimp only at hends ⊢
        split at hends
        · rename_i hrest
          obtain rfl : start ++ [part] = target := by simpa [Located.place?] using hends
          obtain rfl : FileTree.link text = found := Option.some.inj (hnext.symm.trans hfound)
          rw [if_pos hrest]
        · rename_i hrest
          rw [if_neg hrest]
          exact hagain _ _ hends

theorem goWithin_placed (h : t.Placed t' place node)
    (hnode : target = place → ∀ text, node ≠ .link text) (hfound : t'.at? target = some found)
    {limit : Nat} {parts : List String}
    (hends : EndsAt (goWithin t follow limit start parts) target) :
    goWithin t' follow limit start parts = .ok (.node target found) := by
  induction limit generalizing start parts with
  | zero => exact absurd hends not_endsAt_error
  | succ limit ih => exact goAlong_placed h hnode hfound (fun _ _ => ih) hends

end Walk

/-- What the end of a walk tells about the tree. -/
def Located.Holds (t : FileTree) : Located → Prop
  | .node place there => t.at? place = some there
  | .free directory name => t.HasDirectory directory ∧ t.at? (directory ++ [name]) = none
  | .slashed _ => True

section Walk

variable {t : FileTree} {follow : Bool} {start parts : List String} {found : Located}

theorem holds_stopped {fault : AccessFault} {rest : List String}
    (h : stopped fault rest = .ok found) : found.Holds t := by
  rw [stopped] at h
  split at h
  · obtain rfl := Except.ok.inj h
    trivial
  · cases h

theorem holds_goAlong {again : List String → List String → Except AccessFault Located}
    (hagain : ∀ start parts found, again start parts = .ok found → found.Holds t)
    (h : goAlong t follow again start parts = .ok found) : found.Holds t := by
  induction parts generalizing start with
  | nil =>
    rw [goAlong] at h
    split at h
    · rename_i hnode
      obtain rfl := Except.ok.inj h
      exact hnode
    · cases h
  | cons part rest ih =>
    rcases goAlong_part part with ⟨move, hmove⟩ | hlong | hname
    · rw [hmove] at h
      exact ih h
    · rw [hlong] at h
      cases h
    rw [goAlong_name hname] at h
    cases hnext : t.at? (start ++ [part]) with
    | none =>
      rw [hnext] at h
      dsimp only at h
      split at h
      · split at h
        · rename_i entries hdirectory
          obtain rfl := Except.ok.inj h
          exact ⟨⟨entries, hdirectory⟩, hnext⟩
        · cases h
      · exact holds_stopped h
    | some next =>
      rw [hnext] at h
      cases next with
      | file content =>
        dsimp only at h
        split at h
        · obtain rfl := Except.ok.inj h
          exact hnext
        · exact holds_stopped h
      | directory entries => exact ih h
      | link text =>
        dsimp only at h
        split at h
        · obtain rfl := Except.ok.inj h
          exact hnext
        · exact hagain _ _ _ h

theorem holds_goWithin {limit : Nat} (h : goWithin t follow limit start parts = .ok found) :
    found.Holds t := by
  induction limit generalizing start parts found with
  | zero => cases h
  | succ limit ih => exact holds_goAlong (fun _ _ _ hnext => ih hnext) h

end Walk

end ModuleGraph
