import Mathlib.Data.List.Induction
import ModuleGraph.FileTree.Walk
import ModuleGraph.Proofs.PathEnd

/-! The places that a walk comes to: what lies below its start with nothing but directories that
are not excluded above it. -/

namespace ModuleGraph.FileTree

variable {t node : FileTree} {excluded : String → Bool} {name : String} {place rest : List String}
variable {entries : List (String × FileTree)}

/-- A tree as a file system holds it. -/
structure Proper (t : FileTree) : Prop where
  distinct : ∀ place entries, t.at? place = some (.directory entries) →
    (entries.map Prod.fst).Nodup
  isName : ∀ place node, t.at? place = some node → ∀ name ∈ place, IsName name

theorem Proper.at? (h : t.Proper) (hnode : t.at? place = some node) : node.Proper where
  distinct := fun below entries hbelow =>
    h.distinct (place ++ below) entries (by rw [at?_append, hnode]; exact hbelow)
  isName := by
    intro below other hbelow name hname
    refine h.isName (place ++ below) other ?_ name (List.mem_append_right _ hname)
    rw [at?_append, hnode]
    exact hbelow

theorem Proper.entry (h : (directory entries).Proper) (hmem : (name, node) ∈ entries) :
    node.Proper := by
  have hlookup := (lookup_eq_some_iff_mem (h.distinct [] entries rfl)).mpr hmem
  have hnode : (directory entries).at? [name] = some node := by
    rw [FileTree.at?, entry?, hlookup]
    rfl
  exact h.at? hnode

theorem proper_of_leaf (h : ∀ name, t.entry? name = none)
    (hleaf : ∀ entries, t ≠ .directory entries) : t.Proper where
  distinct := by
    intro place entries hplace
    cases place with
    | nil => exact absurd (Option.some.inj hplace) (hleaf entries)
    | cons name rest => simp [FileTree.at?, h] at hplace
  isName := by
    intro place node hnode name hname
    cases place with
    | nil => cases hname
    | cons first rest => simp [FileTree.at?, h] at hnode

theorem proper_directory (hdistinct : (entries.map Prod.fst).Nodup)
    (hentries : ∀ e ∈ entries, IsName e.1 ∧ e.2.Proper) : (directory entries).Proper where
  distinct := by
    intro place inside hplace
    cases place with
    | nil =>
      obtain rfl := directory.inj (Option.some.inj hplace)
      exact hdistinct
    | cons name rest =>
      obtain ⟨node, hnode, hrest⟩ := Option.bind_eq_some_iff.mp hplace
      exact (hentries _ (mem_of_lookup hnode)).2.distinct rest inside hrest
  isName := by
    intro place found hplace name hname
    cases place with
    | nil => cases hname
    | cons first rest =>
      obtain ⟨node, hnode, hrest⟩ := Option.bind_eq_some_iff.mp hplace
      have hentry := hentries _ (mem_of_lookup hnode)
      rcases List.mem_cons.mp hname with rfl | hname
      · exact hentry.1
      · exact hentry.2.isName rest found hrest name hname

/-- A walk comes to a place through directories that are not excluded. -/
structure Visits (t : FileTree) (excluded : String → Bool) (place : List String) : Prop where
  isEntry : place ≠ [] ∧ ∃ node, t.at? place = some node
  above : ∀ before name after, place = before ++ name :: after → after ≠ [] →
    t.HasDirectory (before ++ [name]) ∧ excluded name = false

theorem at?_cons : (directory entries).at? (name :: rest) =
    (entries.lookup name).bind (·.at? rest) := rfl

theorem visits_cons_iff : (directory entries).Visits excluded (name :: rest) ↔
    ∃ node, entries.lookup name = some node ∧
      (rest = [] ∨ excluded name = false ∧ ∃ inside, node = .directory inside ∧
        node.Visits excluded rest) := by
  constructor
  · rintro ⟨⟨-, found, hfound⟩, habove⟩
    rw [at?_cons] at hfound
    obtain ⟨node, hnode, hrest⟩ := Option.bind_eq_some_iff.mp hfound
    refine ⟨node, hnode, ?_⟩
    cases rest with
    | nil => exact .inl rfl
    | cons next rest =>
      obtain ⟨⟨inside, hinside⟩, hexcluded⟩ := habove [] name (next :: rest) rfl (by simp)
      rw [List.nil_append, at?_cons, hnode] at hinside
      refine .inr ⟨hexcluded, inside, Option.some.inj hinside, ⟨by simp, found, hrest⟩, ?_⟩
      intro before other after hsplit hafter
      have := habove (name :: before) other after (by simp [hsplit]) hafter
      simpa [HasDirectory, at?_cons, hnode] using this
  · rintro ⟨node, hnode, rfl | ⟨hexcluded, inside, rfl, ⟨-, found, hfound⟩, habove⟩⟩
    · refine ⟨⟨by simp, node, by rw [at?_cons, hnode]; rfl⟩, ?_⟩
      intro before other after hsplit hafter
      have hlength := congrArg List.length hsplit
      have hpos := List.length_pos_iff.mpr hafter
      simp only [List.length_cons, List.length_nil, List.length_append] at hlength
      omega
    · refine ⟨⟨by simp, found, by rw [at?_cons, hnode]; exact hfound⟩, ?_⟩
      intro before other after hsplit hafter
      cases before with
      | nil =>
        obtain ⟨rfl, rfl⟩ := List.cons.inj hsplit
        exact ⟨⟨inside, by rw [List.nil_append, at?_cons, hnode]; rfl⟩, hexcluded⟩
      | cons first before =>
        obtain ⟨rfl, hrest⟩ := List.cons.inj hsplit
        have := habove before other after hrest hafter
        simpa [HasDirectory, at?_cons, hnode] using this

theorem mem_dropLast_iff : name ∈ place.dropLast ↔
    ∃ before after, place = before ++ name :: after ∧ after ≠ [] := by
  constructor
  · cases place using List.reverseRecOn with
    | nil => simp
    | append_singleton init last =>
      rw [List.dropLast_concat]
      intro hname
      obtain ⟨before, after, rfl⟩ := List.append_of_mem hname
      exact ⟨before, after ++ [last], by simp, by simp⟩
  · rintro ⟨before, after, rfl, hafter⟩
    rw [List.dropLast_append_of_ne_nil (by simp), List.dropLast_cons_of_ne_nil hafter]
    simp

/-- What lies at a place lies in directories, so only their names matter. -/
theorem visits_iff : t.Visits excluded place ↔
    (place ≠ [] ∧ ∃ node, t.at? place = some node) ∧
      ∀ name ∈ place.dropLast, excluded name = false := by
  constructor
  · refine fun h => ⟨h.isEntry, fun name hname => ?_⟩
    obtain ⟨before, after, hsplit, hafter⟩ := mem_dropLast_iff.mp hname
    exact (h.above before name after hsplit hafter).2
  · rintro ⟨⟨hplace, node, hnode⟩, hnames⟩
    refine ⟨⟨hplace, node, hnode⟩, fun before name after hsplit hafter => ⟨?_,
      hnames name (mem_dropLast_iff.mpr ⟨before, after, hsplit, hafter⟩)⟩⟩
    obtain ⟨next, rest, rfl⟩ := List.exists_cons_of_ne_nil hafter
    rw [hsplit, List.append_cons] at hnode
    exact hasDirectory_of_append hnode

theorem visits_iff_not_excluded : t.Visits excluded place ↔
    t.Visits (fun _ => false) place ∧ ∀ name ∈ place.dropLast, excluded name = false := by
  rw [visits_iff, visits_iff]
  simp

/-- Trees with the same look-ups are walked in the same way. -/
theorem Visits.of_alike {t' : FileTree} (h : Alike (t.at? place) (t'.at? place))
    (hvisits : t.Visits excluded place) : t'.Visits excluded place := by
  obtain ⟨⟨hplace, node, hnode⟩, hnames⟩ := visits_iff.mp hvisits
  refine visits_iff.mpr ⟨⟨hplace, ?_⟩, hnames⟩
  rcases h with he | ⟨-, inside, -, he⟩
  · exact ⟨node, he ▸ hnode⟩
  · exact ⟨_, he⟩

theorem walkEntries_eq_map : walkEntries excluded entries =
    entries.map (fun e => (e.1, walkEntry excluded e.1 e.2)) := by
  induction entries with
  | nil => rfl
  | cons e rest ih => rw [walkEntries, ih, List.map_cons]

theorem walkEntry_directory : walkEntry excluded name (.directory entries) =
    [name] :: if excluded name then [] else (walk excluded entries).map (name :: ·) := by
  rw [walkEntry, walk, List.map_flatMap]

theorem walkEntry_of_leaf (h : ∀ inside, node ≠ .directory inside) :
    walkEntry excluded name node = [[name]] := by
  cases node with
  | file content => rw [walkEntry]; simp
  | link target => rw [walkEntry]; simp
  | directory inside => exact absurd rfl (h inside)

theorem exists_eq_cons_of_mem_walkEntry (h : place ∈ walkEntry excluded name node) :
    ∃ rest, place = name :: rest := by
  by_cases hleaf : ∀ inside, node ≠ .directory inside
  · rw [walkEntry_of_leaf hleaf, List.mem_singleton] at h
    exact ⟨[], h⟩
  · obtain ⟨inside, rfl⟩ := by simpa using hleaf
    rw [walkEntry_directory, List.mem_cons] at h
    rcases h with rfl | h
    · exact ⟨[], rfl⟩
    split at h
    · cases h
    · obtain ⟨rest, -, rfl⟩ := List.mem_map.mp h
      exact ⟨rest, rfl⟩

theorem mem_walkEntry_iff : name :: rest ∈ walkEntry excluded name node ↔
    rest = [] ∨ excluded name = false ∧ ∃ inside, node = .directory inside ∧
      rest ∈ walk excluded inside := by
  by_cases hleaf : ∀ inside, node ≠ .directory inside
  · rw [walkEntry_of_leaf hleaf, List.mem_singleton, List.cons.injEq, and_iff_right rfl]
    refine (or_iff_left ?_).symm
    rintro ⟨-, inside, rfl, -⟩
    exact hleaf inside rfl
  · obtain ⟨inside, rfl⟩ := by simpa using hleaf
    rw [walkEntry_directory, List.mem_cons, List.cons.injEq, and_iff_right rfl]
    refine or_congr_right ?_
    cases excluded name <;> simp

theorem byName_perm {α : Type} (es : List (String × α)) : (byName es).Perm es :=
  List.mergeSort_perm _ _

theorem mem_walk_iff : place ∈ walk excluded entries ↔
    ∃ e ∈ entries, place ∈ walkEntry excluded e.1 e.2 := by
  rw [walk, walkEntries_eq_map, List.mem_flatMap]
  simp only [(byName_perm _).mem_iff, List.mem_map]
  constructor
  · rintro ⟨-, ⟨e, he, rfl⟩, hplace⟩
    exact ⟨e, he, hplace⟩
  · rintro ⟨e, he, hplace⟩
    exact ⟨_, ⟨e, he, rfl⟩, hplace⟩

theorem ne_nil_of_mem_walk (h : place ∈ walk excluded entries) : place ≠ [] := by
  obtain ⟨e, -, hplace⟩ := mem_walk_iff.mp h
  obtain ⟨rest, rfl⟩ := exists_eq_cons_of_mem_walkEntry hplace
  simp

theorem mem_walk (h : (directory entries).Proper) :
    place ∈ walk excluded entries ↔ (directory entries).Visits excluded place := by
  induction place generalizing entries with
  | nil => exact iff_of_false (fun hmem => ne_nil_of_mem_walk hmem rfl) fun hv => hv.isEntry.1 rfl
  | cons name rest ih =>
    rw [mem_walk_iff, visits_cons_iff]
    have hdistinct := h.distinct [] entries rfl
    constructor
    · rintro ⟨⟨first, node⟩, he, hplace⟩
      obtain ⟨other, hother⟩ := exists_eq_cons_of_mem_walkEntry hplace
      obtain ⟨rfl, rfl⟩ := List.cons.inj hother
      refine ⟨node, (lookup_eq_some_iff_mem hdistinct).mpr he, ?_⟩
      rcases mem_walkEntry_iff.mp hplace with rfl | ⟨hexcluded, inside, rfl, hrest⟩
      · exact .inl rfl
      · exact .inr ⟨hexcluded, inside, rfl, (ih (h.entry he)).mp hrest⟩
    · rintro ⟨node, hnode, hcases⟩
      have he := (lookup_eq_some_iff_mem hdistinct).mp hnode
      refine ⟨(name, node), he, mem_walkEntry_iff.mpr ?_⟩
      rcases hcases with rfl | ⟨hexcluded, inside, rfl, hrest⟩
      · exact .inl rfl
      · exact .inr ⟨hexcluded, inside, rfl, (ih (h.entry he)).mpr hrest⟩

end ModuleGraph.FileTree
