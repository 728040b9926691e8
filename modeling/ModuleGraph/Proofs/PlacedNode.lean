import ModuleGraph.FileTree.Basic

/-! What a tree holds at its places once a node without entries has been put into a directory. The
node is seen at its own place only: every other place holds the same file or link as before, or a
directory as before. -/

namespace ModuleGraph

namespace FileTree

/-- There is a directory at a place. -/
def HasDirectory (t : FileTree) (place : List String) : Prop :=
  ∃ entries, t.at? place = some (.directory entries)

theorem at?_append (t : FileTree) (place rest : List String) :
    t.at? (place ++ rest) = (t.at? place).bind (·.at? rest) := by
  induction place generalizing t with
  | nil => rfl
  | cons name place ih =>
    rw [List.cons_append, at?, at?]
    cases t.entry? name with
    | none => rfl
    | some node => exact ih node

theorem hasDirectory_of_entry? {t node : FileTree} {name : String} (h : t.entry? name = some node) :
    ∃ entries, t = .directory entries := by
  cases t with
  | file => cases h
  | link => cases h
  | directory entries => exact ⟨entries, rfl⟩

theorem hasDirectory_of_append {t node : FileTree} {place : List String} {name : String}
    {rest : List String} (h : t.at? (place ++ name :: rest) = some node) :
    t.HasDirectory place := by
  rw [at?_append] at h
  obtain ⟨found, hfound, h⟩ := Option.bind_eq_some_iff.mp h
  obtain ⟨next, hnext, -⟩ := Option.bind_eq_some_iff.mp h
  obtain ⟨entries, rfl⟩ := hasDirectory_of_entry? hnext
  exact ⟨entries, hfound⟩

theorem HasDirectory.cons {t : FileTree} {first : String} {place : List String}
    (h : t.HasDirectory (first :: place)) : ∃ siblings next, t = .directory siblings ∧
      siblings.lookup first = some next ∧ next.HasDirectory place := by
  obtain ⟨entries, h⟩ := h
  obtain ⟨next, hnext, hplace⟩ := Option.bind_eq_some_iff.mp h
  obtain ⟨siblings, rfl⟩ := hasDirectory_of_entry? hnext
  exact ⟨siblings, next, rfl, hnext, entries, hplace⟩

/-- Two nodes are the same for a path that goes through them. -/
def Alike (x y : Option FileTree) : Prop :=
  x = y ∨ ∃ entries entries', x = some (.directory entries) ∧ y = some (.directory entries')

theorem Alike.symm {x y : Option FileTree} (h : Alike x y) : Alike y x := by
  rcases h with he | ⟨entries, entries', he, he'⟩
  · exact .inl he.symm
  · exact .inr ⟨entries', entries, he', he⟩

/-- Only directories can be alike without being the same. -/
theorem Alike.eq_of_leaf {x y : Option FileTree} (h : Alike x y)
    (hleaf : ∀ entries, x ≠ some (.directory entries)) : y = x := by
  rcases h with he | ⟨entries, -, he, -⟩
  · exact he.symm
  · exact absurd he (hleaf entries)

section Put

variable {t node : FileTree} {directory : List String} {name : String}

theorem at?_put_append (h : t.HasDirectory directory) (rest : List String) :
    (t.put (directory ++ [name]) node).at? (directory ++ name :: rest) = node.at? rest := by
  induction directory generalizing t with
  | nil =>
    obtain ⟨entries, h⟩ := h
    obtain rfl : t = .directory entries := Option.some.inj h
    simp [put, at?, entry?, lookup_upsert]
  | cons first directory ih =>
    obtain ⟨siblings, next, rfl, hlookup, hnext⟩ := h.cons
    simp only [List.cons_append, put, at?, entry?, lookup_upsert, hlookup, Option.getD_some,
      if_true, Option.bind_some]
    exact ih hnext

theorem alike_put (h : t.HasDirectory directory) {place : List String}
    (hplace : ¬ directory ++ [name] <+: place) :
    Alike (t.at? place) ((t.put (directory ++ [name]) node).at? place) := by
  induction directory generalizing t place with
  | nil =>
    obtain ⟨entries, h⟩ := h
    obtain rfl : t = .directory entries := Option.some.inj h
    cases place with
    | nil => exact .inr ⟨_, _, rfl, rfl⟩
    | cons first rest =>
      have hne : first ≠ name := by
        rintro rfl
        exact hplace ⟨rest, rfl⟩
      refine .inl ?_
      simp [put, at?, entry?, lookup_upsert, hne]
  | cons first directory ih =>
    obtain ⟨siblings, next, rfl, hlookup, hnext⟩ := h.cons
    cases place with
    | nil => exact .inr ⟨_, _, rfl, rfl⟩
    | cons other rest =>
      simp only [List.cons_append, put, at?, entry?, lookup_upsert, hlookup, Option.getD_some]
      by_cases hother : other = first
      · subst hother
        rw [hlookup, if_pos rfl]
        refine ih hnext fun hprefix => hplace ?_
        exact List.cons_prefix_cons.mpr ⟨rfl, hprefix⟩
      · rw [if_neg hother]
        exact .inl rfl

end Put

/-- The tree `t'` has a node at a place where `t` has a file or nothing. For paths that lead
anywhere else the trees are the same. -/
structure Placed (t t' : FileTree) (place : List String) (node : FileTree) : Prop where
  here : t'.at? place = some node
  vacant : ∀ other, t.at? place = some other → ∃ content, other = .file content
  elsewhere : ∀ other ≠ place, Alike (t.at? other) (t'.at? other)

/-- A node without entries comes to a place in a directory. -/
theorem placed_put {t node : FileTree} {directory : List String} {name : String}
    (h : t.HasDirectory directory) (hleaf : ∀ next rest, node.at? (next :: rest) = none)
    (hvacant : ∀ other, t.at? (directory ++ [name]) = some other →
      ∃ content, other = .file content) :
    Placed t (t.put (directory ++ [name]) node) (directory ++ [name]) node where
  here := at?_put_append h []
  vacant := hvacant
  elsewhere := by
    intro other hother
    by_cases hprefix : directory ++ [name] <+: other
    · obtain ⟨rest, rfl⟩ := hprefix
      cases rest with
      | nil => exact absurd (List.append_nil _) hother
      | cons next rest =>
        -- Nothing lies below the place, neither before nor afterwards.
        have hbefore : t.at? (directory ++ [name] ++ next :: rest) = none := by
          rw [at?_append]
          cases hold : t.at? (directory ++ [name]) with
          | none => rfl
          | some old =>
            obtain ⟨content, rfl⟩ := hvacant old hold
            rfl
        have hafter : (t.put (directory ++ [name]) node).at?
            (directory ++ [name] ++ next :: rest) = none := by
          rw [List.append_assoc, List.singleton_append, at?_put_append h, hleaf]
        exact .inl (hbefore.trans hafter.symm)
    · exact alike_put h hprefix

theorem placed_root {t : FileTree} {content old : List UInt8} (h : t.at? [] = some (.file old)) :
    Placed t (t.put [] (.file content)) [] (.file content) where
  here := rfl
  vacant := fun other hother => ⟨old, Option.some.inj (hother.symm.trans h)⟩
  elsewhere := by
    obtain rfl : t = .file old := Option.some.inj h
    intro other hother
    cases other with
    | nil => exact absurd rfl hother
    | cons name rest => exact .inl rfl

section Placed

variable {t t' node : FileTree} {place : List String}

theorem Placed.hasDirectory (h : Placed t t' place node) {other : List String}
    (hother : t.HasDirectory other) : t'.HasDirectory other := by
  obtain ⟨entries, hother⟩ := hother
  have hne : other ≠ place := by
    rintro rfl
    obtain ⟨content, hfile⟩ := h.vacant _ hother
    cases hfile
  rcases h.elsewhere other hne with he | ⟨-, entries', -, he⟩
  · exact ⟨entries, he ▸ hother⟩
  · exact ⟨entries', he⟩

theorem Placed.at?_link (h : Placed t t' place node) {other : List String} {text : String}
    (hlink : t.at? other = some (.link text)) : t'.at? other = some (.link text) := by
  have hne : other ≠ place := by
    rintro rfl
    obtain ⟨content, hfile⟩ := h.vacant _ hlink
    cases hfile
  exact ((h.elsewhere other hne).eq_of_leaf (by simp [hlink])).trans hlink

theorem Placed.at?_file (h : Placed t t' place node) {other : List String} (hother : other ≠ place)
    {content : List UInt8} (hfile : t.at? other = some (.file content)) :
    t'.at? other = some (.file content) :=
  ((h.elsewhere other hother).eq_of_leaf (by simp [hfile])).trans hfile

/-- A link that is seen afterwards was there before, unless it is what was put there. -/
theorem Placed.at?_old_link (h : Placed t t' place node) {other : List String} {text : String}
    (hother : other = place → ∀ text, node ≠ .link text)
    (hlink : t'.at? other = some (.link text)) : t.at? other = some (.link text) := by
  by_cases hplace : other = place
  · have hnode := hother hplace text
    subst hplace
    exact absurd (Option.some.inj (h.here.symm.trans hlink)) hnode
  · exact ((h.elsewhere other hplace).symm.eq_of_leaf (by simp [hlink])).trans hlink

end Placed

end FileTree

end ModuleGraph
