import Mathlib.Data.List.Dedup
import Mathlib.Data.List.Induction
import ModuleGraph.KeyedList
import ModuleGraph.Proofs.Reachability

/-! What a name that is needed twice does to the order of a closure. Names are reported where
a dependency list has them first, but expanded in the order in which it has them last. So the
repeated names of a list change nothing if both orders are the same, and otherwise there is a
table in which they change the order of the names behind them. -/

namespace ModuleGraph.DependencyTable

section Places

variable {xs : List String}

theorem eraseDups_filter (p : String → Bool) (xs : List String) :
    (xs.filter p).eraseDups = xs.eraseDups.filter p := by
  induction xs using List.reverseRecOn with
  | nil => rfl
  | append_singleton xs x ih =>
    rw [List.filter_append, eraseDups_concat]
    cases hp : p x with
    | false =>
      rw [List.filter_cons_of_neg (by simp [hp]), List.filter_nil, List.append_nil, ih]
      split
      · rfl
      · simp [hp]
    | true =>
      rw [List.filter_cons_of_pos hp, List.filter_nil, eraseDups_concat, ih]
      by_cases hx : x ∈ xs
      · rw [if_pos hx, if_pos (List.mem_filter.mpr ⟨hx, hp⟩)]
      · rw [if_neg hx, if_neg fun h => hx (List.mem_filter.mp h).1, List.filter_append]
        simp [hp]

theorem nodup_eraseDups (xs : List String) : xs.eraseDups.Nodup :=
  report_nil xs ▸ nodup_report List.nodup_nil

theorem eraseDups_of_nodup (h : xs.Nodup) : xs.eraseDups = xs := by
  induction xs using List.reverseRecOn with
  | nil => rfl
  | append_singleton xs x ih =>
    rw [List.nodup_append] at h
    have hx : x ∉ xs := fun hmem => h.2.2 x hmem x List.mem_cons_self rfl
    rw [eraseDups_concat, if_neg hx, ih h.1]

theorem reverse_eraseDups_reverse (xs : List String) : xs.reverse.eraseDups.reverse = xs.dedup := by
  induction xs with
  | nil => rfl
  | cons x xs ih =>
    rw [List.reverse_cons, eraseDups_concat]
    by_cases hx : x ∈ xs
    · rw [if_pos (List.mem_reverse.mpr hx), ih, List.dedup_cons_of_mem hx]
    · rw [if_neg fun h => hx (List.mem_reverse.mp h), List.reverse_append, ih,
        List.dedup_cons_of_notMem hx]
      rfl

theorem dedup_filter (p : String → Bool) (xs : List String) :
    (xs.filter p).dedup = xs.dedup.filter p := by
  rw [← reverse_eraseDups_reverse, ← reverse_eraseDups_reverse, ← List.filter_reverse,
    eraseDups_filter, List.filter_reverse]

end Places

/-- The names of a list come last in the order in which they come first. -/
def Steady (ds : List String) : Prop :=
  ds.dedup = ds.eraseDups

instance (ds : List String) : Decidable (Steady ds) :=
  inferInstanceAs (Decidable (ds.dedup = ds.eraseDups))

/-- The table whose lists leave out the later ones of repeated names. -/
def withoutRepeats (table : DependencyTable) : DependencyTable :=
  table.map fun e => (e.1, e.2.eraseDups)

theorem direct_withoutRepeats (table : DependencyTable) (name : String) :
    table.withoutRepeats.direct name = (table.direct name).eraseDups := by
  rw [direct, direct, withoutRepeats, lookup_map_snd List.eraseDups name table]
  cases table.lookup name <;> rfl

theorem needs_withoutRepeats (table : DependencyTable) :
    table.withoutRepeats.Needs = table.Needs := by
  funext x y
  rw [Needs, Needs, direct_withoutRepeats, List.mem_eraseDups]

section Step

variable {visited stack found ds : List String}

theorem report_eraseDups (found ds : List String) : report found ds.eraseDups = report found ds := by
  rw [report_eq, report_eq, eraseDups_filter, eraseDups_filter,
    eraseDups_of_nodup (nodup_eraseDups ds)]

theorem schedule_eq (visited stack ds : List String) : schedule visited stack ds =
    ((ds.filter (fun d => d ∉ visited)).eraseDups.reverse ++ visited,
      (ds.filter (fun d => d ∉ visited)).eraseDups.reverse ++ stack) := by
  induction ds generalizing visited stack with
  | nil => rfl
  | cons d ds ih =>
    by_cases hd : d ∈ visited
    · rw [schedule, if_pos hd, ih, List.filter_cons_of_neg (by simpa using hd)]
    · have hrest : ds.filter (fun x => x ∉ d :: visited) =
          (ds.filter (fun x => x ∉ visited)).filter (fun x => !x == d) := by
        rw [List.filter_filter]
        apply List.filter_congr
        intro x _
        by_cases hx : x = d <;> simp [hx]
      rw [schedule, if_neg hd, ih, List.filter_cons_of_pos (by simpa using hd),
        List.eraseDups_cons, hrest]
      simp

/-- Names are put on the stack where they come last, the first of them on top. -/
theorem schedule_reverse (visited stack ds : List String) : schedule visited stack ds.reverse =
    (ds.dedup.filter (fun d => d ∉ visited) ++ visited,
      ds.dedup.filter (fun d => d ∉ visited) ++ stack) := by
  rw [schedule_eq, List.filter_reverse, reverse_eraseDups_reverse, dedup_filter]

theorem Steady.schedule_eraseDups (h : Steady ds) (visited stack : List String) :
    schedule visited stack ds.eraseDups.reverse = schedule visited stack ds.reverse := by
  rw [schedule_reverse, schedule_reverse, (nodup_eraseDups ds).dedup, h]

end Step

theorem Traverses.unique {table : DependencyTable} {visited stack found result other : List String}
    (h : table.Traverses visited stack found result)
    (hother : table.Traverses visited stack found other) : result = other := by
  induction h with
  | done => cases hother; rfl
  | expand name _ ih =>
    cases hother with
    | expand _ h => exact ih h

theorem Traverses.congr {table other : DependencyTable} {visited stack found result : List String}
    (hdirect : ∀ x, table.direct x = other.direct x)
    (h : table.Traverses visited stack found result) :
    other.Traverses visited stack found result := by
  induction h with
  | done visited found => exact .done visited found
  | expand name _ ih =>
    rw [hdirect name] at ih
    exact .expand name ih

/-- A closure depends on the lists of names alone. -/
theorem closure_congr {table other : DependencyTable}
    (hdirect : ∀ x, table.direct x = other.direct x) (root : String) :
    table.closure root = other.closure root :=
  ((traverses_closure table root).congr hdirect).unique (traverses_closure other root)

/-- A search takes the same steps without the repeated names of the lists it comes across. -/
theorem Traverses.withoutRepeats {table : DependencyTable} {root : String}
    {visited stack found result : List String} (h : table.Traverses visited stack found result)
    (hsearched : table.Searched root visited stack found)
    (hsteady : ∀ name, Relation.ReflTransGen table.Needs root name → Steady (table.direct name)) :
    table.withoutRepeats.Traverses visited stack found result := by
  induction h with
  | done visited found => exact .done visited found
  | expand name _ ih =>
    have hreached : Relation.ReflTransGen table.Needs root name := by
      rcases hsearched.visited_found name (hsearched.stack_visited name List.mem_cons_self) with
        rfl | hfound
      · exact .refl
      · exact (hsearched.reached name hfound).to_reflTransGen
    refine .expand name ?_
    rw [direct_withoutRepeats, (hsteady name hreached).schedule_eraseDups, report_eraseDups]
    exact ih hsearched.expand

theorem closure_withoutRepeats_of_steady {table : DependencyTable} {root : String}
    (h : ∀ name, Relation.ReflTransGen table.Needs root name → Steady (table.direct name)) :
    table.withoutRepeats.closure root = table.closure root :=
  (traverses_closure _ root).unique
    ((traverses_closure table root).withoutRepeats (searched_start table root) h)

theorem steady_direct {table : DependencyTable} (h : ∀ e ∈ table, Steady e.2) (name : String) :
    Steady (table.direct name) := by
  rw [direct]
  cases hds : table.lookup name with
  | none => rfl
  | some ds =>
    exact h (name, ds) (mem_of_lookup hds)

theorem closure_withoutRepeats_perm (table : DependencyTable) (root : String) :
    (table.withoutRepeats.closure root).Perm (table.closure root) := by
  rw [List.perm_ext_iff_of_nodup (nodup_closure _ _) (nodup_closure _ _)]
  intro y
  rw [mem_closure, mem_closure, needs_withoutRepeats]

/-- A root that needs the names of a list, each of which needs one name of its own. -/
def fan (root : String) (leaf : String → String) (ds : List String) : DependencyTable :=
  (root, ds) :: ds.map fun x => (x, [leaf x])

section Fan

variable {table : DependencyTable} {leaf : String → String} {root : String} {ds : List String}

/-- Names that need one unknown name each are expanded in the order of the stack. -/
theorem traverses_leaves (hinj : leaf.Injective) {stack : List String} (hstack : stack.Nodup)
    (hdirect : ∀ x ∈ stack, table.direct x = [leaf x] ∧ table.direct (leaf x) = [])
    {visited found : List String} (hvisited : ∀ x ∈ stack, leaf x ∉ visited)
    (hfound : ∀ x ∈ stack, leaf x ∉ found) :
    table.Traverses visited stack found (found ++ stack.map leaf) := by
  induction stack generalizing visited found with
  | nil => simpa using Traverses.done visited found
  | cons x stack ih =>
    rw [List.forall_mem_cons] at hdirect hvisited hfound
    rw [List.nodup_cons] at hstack
    have hnew : ∀ y ∈ stack, leaf y ≠ leaf x := by
      intro y hy he
      exact hstack.1 (hinj he ▸ hy)
    have hvisited' : ∀ y ∈ stack, leaf y ∉ leaf x :: visited :=
      fun y hy => by simp [hnew y hy, hvisited.2 y hy]
    have hfound' : ∀ y ∈ stack, leaf y ∉ found ++ [leaf x] :=
      fun y hy => by simp [hnew y hy, hfound.2 y hy]
    have hrest := ih hstack.2 hdirect.2 hvisited' hfound'
    refine .expand x ?_
    rw [hdirect.1.1, List.reverse_singleton, schedule, if_neg hvisited.1, schedule, report,
      if_neg hfound.1, report]
    refine .expand (leaf x) ?_
    rw [hdirect.1.2, List.reverse_nil, schedule, report]
    simpa using hrest

theorem closure_of_leaves (table : DependencyTable) (root : String) (hinj : leaf.Injective)
    (hroot : root ∉ table.direct root)
    (hleaf : ∀ x ∈ table.direct root, leaf x ∉ root :: table.direct root ∧
      table.direct x = [leaf x] ∧ table.direct (leaf x) = []) :
    table.closure root = (table.direct root).eraseDups ++ (table.direct root).dedup.map leaf := by
  have hnew : (table.direct root).dedup.filter (fun d => d ∉ [root]) = (table.direct root).dedup := by
    apply List.filter_eq_self.mpr
    intro x hx
    have hne : x ≠ root := by
      rintro rfl
      exact hroot (List.mem_dedup.mp hx)
    simpa using hne
  refine (traverses_closure table root).unique (.expand root ?_)
  rw [schedule_reverse, hnew, report_nil, List.append_nil]
  refine traverses_leaves hinj (List.nodup_dedup _) ?_ ?_ ?_
  · exact fun x hx => (hleaf x (List.mem_dedup.mp hx)).2
  · intro x hx
    have hfresh := (hleaf x (List.mem_dedup.mp hx)).1
    simpa [or_comm] using hfresh
  · intro x hx
    have hfresh := (hleaf x (List.mem_dedup.mp hx)).1
    rw [List.mem_cons, not_or] at hfresh
    simpa using hfresh.2

theorem direct_fan_root (root : String) (leaf : String → String) (ds : List String) :
    (fan root leaf ds).direct root = ds := by
  simp [direct, fan]

theorem direct_fan {x : String} (hx : x ≠ root) :
    (fan root leaf ds).direct x = if x ∈ ds then [leaf x] else [] := by
  have hb : (x == root) = false := by simpa using hx
  rw [direct, fan, List.lookup_cons, hb]
  dsimp only
  rw [lookup_map_mk fun d => [leaf d]]
  split <;> rfl

/-- If only the root has a list with repeated names, the names behind it show the order in which
this list is expanded. -/
theorem closure_fan (hinj : leaf.Injective) (hroot : root ∉ ds)
    (hleaf : ∀ x ∈ ds, leaf x ∉ root :: ds) :
    (fan root leaf ds).closure root = ds.eraseDups ++ ds.dedup.map leaf ∧
      (fan root leaf ds).withoutRepeats.closure root = ds.eraseDups ++ ds.eraseDups.map leaf := by
  have hdirect : ∀ x ∈ ds, (fan root leaf ds).direct x = [leaf x] ∧
      (fan root leaf ds).direct (leaf x) = [] := by
    intro x hx
    have hfresh := hleaf x hx
    have hne : x ≠ root := by
      rintro rfl
      exact hroot hx
    rw [List.mem_cons, not_or] at hfresh
    rw [direct_fan hne, if_pos hx, direct_fan hfresh.1, if_neg hfresh.2]
    exact ⟨rfl, rfl⟩
  constructor
  · have hclosure := closure_of_leaves (fan root leaf ds) root hinj
    rw [direct_fan_root] at hclosure
    exact hclosure hroot fun x hx => ⟨hleaf x hx, hdirect x hx⟩
  · have hclosure := closure_of_leaves (fan root leaf ds).withoutRepeats root hinj
    rw [direct_withoutRepeats, direct_fan_root, eraseDups_of_nodup (nodup_eraseDups ds),
      (nodup_eraseDups ds).dedup] at hclosure
    refine hclosure (fun hmem => hroot (List.mem_eraseDups.mp hmem)) fun x hx => ?_
    rw [List.mem_eraseDups] at hx
    rw [direct_withoutRepeats, direct_withoutRepeats, (hdirect x hx).1, (hdirect x hx).2]
    refine ⟨fun hmem => hleaf x hx ?_, rfl, rfl⟩
    simpa using hmem

end Fan

theorem exists_fresh (ds : List String) : ∃ (root : String) (leaf : String → String),
    leaf.Injective ∧ root ∉ ds ∧ ∀ x ∈ ds, leaf x ∉ root :: ds := by
  -- The root is longer than every name of the list, and a leaf longer than the root.
  let root := String.ofList ('.' :: ds.flatMap (·.toList))
  have hlonger : ∀ x ∈ ds, x.toList.length < root.toList.length := by
    intro x hx
    have hle : x.toList.length ≤ (ds.flatMap (·.toList)).length :=
      (List.sublist_flatten_of_mem (List.mem_map_of_mem hx)).length_le
    simpa [root] using Nat.lt_succ_of_le hle
  have hleaf : ∀ x, root.toList.length < (root ++ "." ++ x).toList.length := by
    intro x
    simp only [String.toList_append, List.length_append]
    have hdot : ".".toList.length = 1 := rfl
    omega
  refine ⟨root, fun x => root ++ "." ++ x, ?_, ?_, ?_⟩
  · intro x y he
    have hlist := congrArg String.toList he
    simp only [String.toList_append, List.append_cancel_left_eq] at hlist
    exact String.toList_inj.mp hlist
  · exact fun hmem => Nat.lt_irrefl _ (hlonger root hmem)
  · intro x _ hmem
    have hlong := hleaf x
    rcases List.mem_cons.mp hmem with he | hmem
    · exact absurd (congrArg (·.toList.length) he) (Nat.ne_of_gt hlong)
    · exact Nat.lt_asymm hlong (hlonger _ hmem)

/-- A closure loses nothing if later repetitions of names are left out of all dependency lists.
Its order stays the same as well if every list that the search comes across has its names last
in the order in which it has them first. For each list that has not there is a table, with no
other list of two names, in which the order of a closure changes. -/
theorem closure_withoutRepeats (table : DependencyTable) (root : String) :
    (table.withoutRepeats.closure root).Perm (table.closure root) ∧
    ((∀ name, Relation.ReflTransGen table.Needs root name → Steady (table.direct name)) →
      table.withoutRepeats.closure root = table.closure root) ∧
    ∀ name, ¬ Steady (table.direct name) → ∃ (other : DependencyTable) (top : String),
      other.direct top = table.direct name ∧ (∀ x ≠ top, (other.direct x).length ≤ 1) ∧
      other.withoutRepeats.closure top ≠ other.closure top := by
  refine ⟨closure_withoutRepeats_perm table root, closure_withoutRepeats_of_steady, ?_⟩
  intro name hname
  obtain ⟨top, leaf, hinj, htop, hleaf⟩ := exists_fresh (table.direct name)
  obtain ⟨hclosure, hwithout⟩ := closure_fan hinj htop hleaf
  refine ⟨fan top leaf (table.direct name), top, direct_fan_root _ _ _, fun x hx => ?_, ?_⟩
  · rw [direct_fan hx]
    split <;> simp
  · rw [hclosure, hwithout, Ne, List.append_cancel_left_eq, List.map_inj_right hinj]
    exact fun he => hname he.symm

def adjacentNames : DependencyTable :=
  [("A", ["B", "B", "C"]), ("B", ["D"]), ("C", ["E"])]

/-- A name that is repeated at once leaves the order as it is, and one that comes again after
another name need not. -/
theorem closure_adjacentNames :
    adjacentNames.withoutRepeats ≠ adjacentNames ∧
    adjacentNames.withoutRepeats.closure "A" = adjacentNames.closure "A" ∧
    ∃ (table : DependencyTable) (root : String), table.direct root = ["B", "C", "B"] ∧
      table.withoutRepeats.closure root ≠ table.closure root := by
  have hsteady : ∀ e ∈ adjacentNames, Steady e.2 := by decide
  have hunsteady : ¬ Steady ["B", "C", "B"] := by decide
  obtain ⟨-, hkept, -⟩ := closure_withoutRepeats adjacentNames "A"
  obtain ⟨-, -, hchanged⟩ := closure_withoutRepeats [("A", ["B", "C", "B"])] "A"
  obtain ⟨table, root, hdirect, -, hne⟩ := hchanged "A" hunsteady
  exact ⟨by decide, hkept fun name _ => steady_direct hsteady name, table, root, hdirect, hne⟩

/-- What follows `C` comes before what follows `B`, since `B` is needed once more after `C`. -/
theorem closure_repeatedName :
    closure [("A", ["B", "C", "B"]), ("B", ["D"]), ("C", ["E"])] "A" = ["B", "C", "E", "D"] ∧
    withoutRepeats [("A", ["B", "C", "B"]), ("B", ["D"]), ("C", ["E"])] =
      [("A", ["B", "C"]), ("B", ["D"]), ("C", ["E"])] ∧
    closure [("A", ["B", "C"]), ("B", ["D"]), ("C", ["E"])] "A" = ["B", "C", "D", "E"] := by
  decide

end ModuleGraph.DependencyTable
