import Mathlib.Data.List.Nodup
import Mathlib.Logic.Relation
import ModuleGraph.Closure
import ModuleGraph.KeyedList

/-! The closure of a name lists what can be reached from it along direct dependencies. The
search ends without its bound, since every listed name is scheduled once at most. What it has
found, visited and not yet expanded is tied together by one invariant. -/

namespace ModuleGraph

theorem eraseDups_concat (xs : List String) (x : String) :
    (xs ++ [x]).eraseDups = if x ∈ xs then xs.eraseDups else xs.eraseDups ++ [x] := by
  rw [List.eraseDups_append]
  by_cases hx : x ∈ xs <;> simp [List.removeAll, hx, List.eraseDups_cons]

namespace DependencyTable

/-- The direct dependencies of a name. An unknown name has none. -/
def direct (table : DependencyTable) (name : String) : List String :=
  (table.lookup name).getD []

/-- A known name `x` has `y` among its direct dependencies. -/
def Needs (table : DependencyTable) (x y : String) : Prop :=
  y ∈ table.direct x

/-- A search that ends: with the names visited, those still to expand and those found so far,
it finds the names of the last argument. There is no bound on its steps. -/
inductive Traverses (table : DependencyTable) :
    List String → List String → List String → List String → Prop where
  | done (visited found : List String) : Traverses table visited [] found found
  | expand {visited stack found result : List String} (name : String)
      (h : Traverses table (schedule visited stack (table.direct name).reverse).1
        (schedule visited stack (table.direct name).reverse).2
        (report found (table.direct name)) result) :
      Traverses table visited (name :: stack) found result

section Report

variable {found ds : List String} {y : String}

theorem report_eq (found ds : List String) :
    report found ds = found ++ (ds.filter (fun d => d ∉ found)).eraseDups := by
  induction ds generalizing found with
  | nil => simp [report]
  | cons d ds ih =>
    by_cases hd : d ∈ found
    · rw [report, if_pos hd, ih, List.filter_cons_of_neg (by simpa using hd)]
    · have hrest : ds.filter (fun x => x ∉ found ++ [d]) =
          (ds.filter (fun x => x ∉ found)).filter (fun x => !x == d) := by
        rw [List.filter_filter]
        apply List.filter_congr
        intro x _
        by_cases hx : x = d <;> simp [hx]
      rw [report, if_neg hd, ih, List.filter_cons_of_pos (by simpa using hd),
        List.eraseDups_cons, hrest, List.append_assoc, List.singleton_append]

theorem report_nil (ds : List String) : report [] ds = ds.eraseDups := by
  simp [report_eq]

theorem prefix_report (found ds : List String) : found <+: report found ds :=
  ⟨_, (report_eq found ds).symm⟩

theorem mem_report : y ∈ report found ds ↔ y ∈ found ∨ y ∈ ds := by
  rw [report_eq, List.mem_append, List.mem_eraseDups, List.mem_filter, decide_eq_true_iff]
  tauto

theorem nodup_report (h : found.Nodup) : (report found ds).Nodup := by
  induction ds generalizing found with
  | nil => exact h
  | cons d ds ih =>
    rw [report]
    split
    · exact ih h
    · rename_i hd
      exact ih (List.nodup_append'.mpr ⟨h, List.nodup_singleton d, by simpa using hd⟩)

end Report

section Schedule

variable {visited stack ds : List String} {x : String}

theorem mem_visited_schedule :
    x ∈ (schedule visited stack ds).1 ↔ x ∈ visited ∨ x ∈ ds := by
  induction ds generalizing visited stack with
  | nil => simp [schedule]
  | cons d ds ih =>
    rw [schedule]
    split
    · rename_i hd
      rw [ih, List.mem_cons]
      constructor
      · exact Or.imp_right .inr
      · rintro (h | rfl | h)
        · exact .inl h
        · exact .inl hd
        · exact .inr h
    · rw [ih, List.mem_cons, List.mem_cons, or_comm (a := x = d), or_assoc]

theorem mem_stack_schedule :
    x ∈ (schedule visited stack ds).2 ↔ x ∈ stack ∨ (x ∈ ds ∧ x ∉ visited) := by
  induction ds generalizing visited stack with
  | nil => simp [schedule]
  | cons d ds ih =>
    rw [schedule]
    split
    · rename_i hd
      rw [ih, List.mem_cons]
      constructor
      · exact Or.imp_right fun h => ⟨.inr h.1, h.2⟩
      · rintro (h | ⟨rfl | h, hnew⟩)
        · exact .inl h
        · exact absurd hd hnew
        · exact .inr ⟨h, hnew⟩
    · rename_i hd
      by_cases hx : x = d
      · subst hx
        simp [ih, hd]
      · simp [ih, hx]

/-- The listed names that are not visited. -/
def pending (table : DependencyTable) (visited : List String) : List String :=
  (table.flatMap (·.2)).filter (fun d => d ∉ visited)

theorem length_pending_cons_lt {table : DependencyTable} (hx : x ∈ table.flatMap (·.2))
    (hnew : x ∉ visited) :
    (table.pending (x :: visited)).length < (table.pending visited).length := by
  have hsub : table.pending (x :: visited) = (table.pending visited).filter (fun d => d ≠ x) := by
    rw [pending, pending, List.filter_filter]
    apply List.filter_congr
    intro d _
    by_cases hd : d = x <;> simp [hd]
  rw [hsub]
  apply List.length_filter_lt_length_iff_exists.mpr
  exact ⟨x, List.mem_filter.mpr ⟨hx, by simpa using hnew⟩, by simp⟩

theorem length_schedule_le {table : DependencyTable} (hds : ∀ d ∈ ds, d ∈ table.flatMap (·.2)) :
    (schedule visited stack ds).2.length + (table.pending (schedule visited stack ds).1).length ≤
      stack.length + (table.pending visited).length := by
  induction ds generalizing visited stack with
  | nil => simp [schedule]
  | cons d ds ih =>
    rw [List.forall_mem_cons] at hds
    rw [schedule]
    split
    · exact ih hds.2
    · rename_i hd
      have hlt := length_pending_cons_lt hds.1 hd
      refine Nat.le_trans (ih hds.2) ?_
      rw [List.length_cons]
      omega

end Schedule

theorem mem_flatMap_of_mem_direct {table : DependencyTable} {name d : String}
    (h : d ∈ table.direct name) : d ∈ table.flatMap (·.2) := by
  rw [direct] at h
  cases hds : table.lookup name with
  | none => simp [hds] at h
  | some ds =>
    rw [hds, Option.getD_some] at h
    exact List.mem_flatMap.mpr ⟨(name, ds), mem_of_lookup hds, h⟩

theorem traverse_cons (table : DependencyTable) (limit : Nat) (visited : List String)
    (name : String) (stack found : List String) :
    table.traverse (limit + 1) visited (name :: stack) found =
      table.traverse limit (schedule visited stack (table.direct name).reverse).1
        (schedule visited stack (table.direct name).reverse).2
        (report found (table.direct name)) := by
  rw [traverse, direct]
  cases table.lookup name <;> rfl

/-- The bound is no restriction if it covers the names still to expand and those that may yet
be scheduled. -/
theorem traverses_traverse (table : DependencyTable) {limit : Nat}
    {visited stack found : List String}
    (h : stack.length + (table.pending visited).length ≤ limit) :
    table.Traverses visited stack found (table.traverse limit visited stack found) := by
  induction limit generalizing visited stack found with
  | zero =>
    obtain rfl : stack = [] := List.length_eq_zero_iff.mp (by omega)
    exact .done visited found
  | succ limit ih =>
    cases stack with
    | nil => exact .done visited found
    | cons name stack =>
      have hlisted : ∀ d ∈ (table.direct name).reverse, d ∈ table.flatMap (·.2) :=
        fun d hd => mem_flatMap_of_mem_direct (List.mem_reverse.mp hd)
      rw [List.length_cons] at h
      rw [traverse_cons]
      exact .expand name (ih (Nat.le_trans (length_schedule_le hlisted) (by omega)))

theorem traverses_closure (table : DependencyTable) (root : String) :
    table.Traverses [root] [root] [] (table.closure root) := by
  apply traverses_traverse
  have hle : (table.pending [root]).length ≤ (table.flatMap (·.2)).length :=
    List.length_filter_le _ _
  rw [reach, List.length_singleton]
  omega

theorem Traverses.prefix {table : DependencyTable} {visited stack found result : List String}
    (h : table.Traverses visited stack found result) : found <+: result := by
  induction h with
  | done => exact List.prefix_rfl
  | expand name _ ih => exact (prefix_report _ _).trans ih

/-- Every name follows one that needs it, unless the root itself does. -/
def Grounded (table : DependencyTable) (root : String) (found : List String) : Prop :=
  ∀ i : Fin found.length,
    table.Needs root found[i] ∨ ∃ x ∈ found.take i, table.Needs x found[i]

theorem Grounded.concat {table : DependencyTable} {root y : String} {found : List String}
    (h : table.Grounded root found)
    (hy : table.Needs root y ∨ ∃ x ∈ found, table.Needs x y) :
    table.Grounded root (found ++ [y]) := by
  rintro ⟨i, hi⟩
  rw [List.length_append, List.length_singleton] at hi
  by_cases hlast : i < found.length
  · have hi := h ⟨i, hlast⟩
    simpa [List.getElem_append_left hlast, List.take_append_of_le_length (Nat.le_of_lt hlast)]
      using hi
  · obtain rfl : i = found.length := by omega
    simpa using hy

theorem Grounded.report {table : DependencyTable} {root name : String} {found ds : List String}
    (h : table.Grounded root found) (hname : name = root ∨ name ∈ found)
    (hds : ∀ d ∈ ds, table.Needs name d) : table.Grounded root (report found ds) := by
  induction ds generalizing found with
  | nil => exact h
  | cons d ds ih =>
    rw [List.forall_mem_cons] at hds
    rw [DependencyTable.report]
    split
    · exact ih h hname hds.2
    · refine ih (h.concat ?_) (hname.imp_right (List.mem_append_left _)) hds.2
      rcases hname with rfl | hname
      · exact .inl hds.1
      · exact .inr ⟨name, hname, hds.1⟩

/-- What holds between the steps of a search from a root: every name on the stack is visited,
every visited name is the root or found, and whatever a visited name needs is found and
visited once the name is off the stack. -/
structure Searched (table : DependencyTable) (root : String)
    (visited stack found : List String) : Prop where
  nodup : found.Nodup
  root_visited : root ∈ visited
  stack_visited : ∀ x ∈ stack, x ∈ visited
  visited_found : ∀ x ∈ visited, x = root ∨ x ∈ found
  reached : ∀ y ∈ found, Relation.TransGen table.Needs root y
  expanded : ∀ x ∈ visited, x ∉ stack → ∀ y, table.Needs x y → y ∈ found ∧ y ∈ visited
  grounded : table.Grounded root found

section Search

variable {table : DependencyTable} {root : String} {visited stack found result : List String}

theorem searched_start (table : DependencyTable) (root : String) :
    table.Searched root [root] [root] [] where
  nodup := List.nodup_nil
  root_visited := List.mem_cons_self
  stack_visited := fun _ hx => hx
  visited_found := fun _ hx => .inl (List.mem_singleton.mp hx)
  reached := by simp
  expanded := fun _ hx hstack => absurd hx hstack
  grounded := fun i => i.elim0

theorem Searched.expand {name : String} (h : table.Searched root visited (name :: stack) found) :
    table.Searched root (schedule visited stack (table.direct name).reverse).1
      (schedule visited stack (table.direct name).reverse).2
      (report found (table.direct name)) := by
  have hname := h.visited_found name (h.stack_visited name List.mem_cons_self)
  have hvisited : ∀ x, x ∈ (schedule visited stack (table.direct name).reverse).1 ↔
      x ∈ visited ∨ x ∈ table.direct name := fun x => by
    rw [mem_visited_schedule, List.mem_reverse]
  have hstack : ∀ x, x ∈ (schedule visited stack (table.direct name).reverse).2 ↔
      x ∈ stack ∨ (x ∈ table.direct name ∧ x ∉ visited) := fun x => by
    rw [mem_stack_schedule, List.mem_reverse]
  refine ⟨nodup_report h.nodup, (hvisited root).mpr (.inl h.root_visited), fun x hx => ?_,
    fun x hx => ?_, fun y hy => ?_, fun x hx hnot y hy => ?_,
    h.grounded.report hname fun _ hd => hd⟩
  · rcases (hstack x).mp hx with hx | ⟨hx, -⟩
    · exact (hvisited x).mpr (.inl (h.stack_visited x (List.mem_cons_of_mem _ hx)))
    · exact (hvisited x).mpr (.inr hx)
  · rcases (hvisited x).mp hx with hx | hx
    · exact (h.visited_found x hx).imp_right (mem_report.mpr <| .inl ·)
    · exact .inr (mem_report.mpr (.inr hx))
  · rcases mem_report.mp hy with hy | hy
    · exact h.reached y hy
    · rcases hname with rfl | hname
      · exact .single hy
      · exact (h.reached name hname).tail hy
  · have hold : x ∈ visited := by
      rcases (hvisited x).mp hx with hx | hx
      · exact hx
      · by_contra hnew
        exact hnot ((hstack x).mpr (.inr ⟨hx, hnew⟩))
    have hoff : x ∉ stack := fun hx => hnot ((hstack x).mpr (.inl hx))
    by_cases hsame : x = name
    · subst hsame
      exact ⟨mem_report.mpr (.inr hy), (hvisited y).mpr (.inr hy)⟩
    · obtain ⟨hfound, hseen⟩ := h.expanded x hold (by simp [hsame, hoff]) y hy
      exact ⟨mem_report.mpr (.inl hfound), (hvisited y).mpr (.inl hseen)⟩

/-- The invariant of the steps holds at the end, when nothing is left to expand. -/
theorem Traverses.searched (h : table.Traverses visited stack found result)
    (hstart : table.Searched root visited stack found) :
    ∃ seen, table.Searched root seen [] result := by
  induction h with
  | done visited found => exact ⟨visited, hstart⟩
  | expand name _ ih => exact ih hstart.expand

theorem Searched.mem_of_needs {y : String} (h : table.Searched root visited [] found)
    (hy : Relation.TransGen table.Needs root y) : y ∈ found ∧ y ∈ visited := by
  induction hy with
  | single hy => exact h.expanded root h.root_visited List.not_mem_nil _ hy
  | tail _ hy ih => exact h.expanded _ ih.2 List.not_mem_nil _ hy

end Search

/-- The first step reports what the root needs itself. -/
theorem direct_prefix_closure (table : DependencyTable) (root : String) :
    (table.direct root).eraseDups <+: table.closure root := by
  cases traverses_closure table root with
  | expand _ h =>
    have hfirst := h.prefix
    rwa [report_nil] at hfirst

theorem exists_searched_closure (table : DependencyTable) (root : String) :
    ∃ seen, table.Searched root seen [] (table.closure root) :=
  (traverses_closure table root).searched (searched_start table root)

theorem nodup_closure (table : DependencyTable) (root : String) : (table.closure root).Nodup := by
  obtain ⟨seen, hsearched⟩ := exists_searched_closure table root
  exact hsearched.nodup

theorem mem_closure {table : DependencyTable} {root y : String} :
    y ∈ table.closure root ↔ Relation.TransGen table.Needs root y := by
  obtain ⟨seen, hsearched⟩ := exists_searched_closure table root
  exact ⟨hsearched.reached y, fun hy => (hsearched.mem_of_needs hy).1⟩

/-- The closure of a name is what an unbounded search from it ends with. It lists each name
once, and exactly the names that can be reached along one dependency or more. First come the
root's own dependencies, and every later name is needed by one that stands before it. -/
theorem closure_lists_reachable (table : DependencyTable) (root : String) :
    table.Traverses [root] [root] [] (table.closure root) ∧
    (table.closure root).Nodup ∧
    (∀ y, y ∈ table.closure root ↔ Relation.TransGen table.Needs root y) ∧
    ∃ later, table.closure root = (table.direct root).eraseDups ++ later ∧
      ∀ i : Fin later.length,
        ∃ x ∈ (table.direct root).eraseDups ++ later.take i, table.Needs x later[i] := by
  have htraverses := traverses_closure table root
  obtain ⟨seen, hsearched⟩ := htraverses.searched (searched_start table root)
  obtain ⟨later, hlater⟩ := direct_prefix_closure table root
  refine ⟨htraverses, hsearched.nodup, fun y => ⟨hsearched.reached y, fun hy =>
    (hsearched.mem_of_needs hy).1⟩, later, hlater.symm, fun i => ?_⟩
  have hnodup := hsearched.nodup
  have hgrounded := hsearched.grounded
  rw [← hlater] at hnodup hgrounded
  have hplace := hgrounded ⟨(table.direct root).eraseDups.length + i, by simp⟩
  simp only [Fin.getElem_fin, List.getElem_append_right (Nat.le_add_right _ _),
    Nat.add_sub_cancel_left, List.take_length_add_append] at hplace ⊢
  refine hplace.resolve_left fun hdirect => ?_
  -- A direct dependency stands among the first names, and no name stands in a list twice.
  exact (List.nodup_append.mp hnodup).2.2 _ (List.mem_eraseDups.mpr hdirect) _
    (List.getElem_mem i.isLt) rfl

example : closure [("A", ["B", "C", "B"]), ("B", ["D", "A"])] "A" = ["B", "C", "D", "A"] := by
  decide

end DependencyTable

end ModuleGraph
