import ModuleGraph.Proofs.RepeatedDependency

/-! Tables whose lists are closures already. What a closure lists is needed by its root at once
in such a table, so closing it again finds the same names in the same order. It makes no
difference by which of its names a provider is closed: names with the same list have the same
closure. -/

namespace ModuleGraph.DependencyTable

/-- Has the closure of each name in the place of its list. All closures are taken over the lists
as they were. -/
def closed (table : DependencyTable) : DependencyTable :=
  table.map fun e => (e.1, table.closure e.1)

section Closed

variable (table : DependencyTable) (name : String)

theorem lookup_closed :
    table.closed.lookup name = (table.lookup name).map fun _ => table.closure name :=
  lookup_map_key table.closure name table

theorem closure_eq_nil {table : DependencyTable} {name : String} (h : table.direct name = []) :
    table.closure name = [] := by
  apply List.eq_nil_iff_forall_not_mem.mpr
  intro y hy
  obtain ⟨x, hx, -⟩ := Relation.TransGen.head'_iff.mp (mem_closure.mp hy)
  rw [Needs, h] at hx
  exact List.not_mem_nil hx

theorem direct_closed : table.closed.direct name = table.closure name := by
  rw [direct, lookup_closed]
  cases hknown : table.lookup name with
  | none =>
    have hdirect : table.direct name = [] := by rw [direct, hknown]; rfl
    exact (closure_eq_nil hdirect).symm
  | some ds => rfl

theorem needs_closed : table.closed.Needs = Relation.TransGen table.Needs := by
  funext x y
  rw [Needs, direct_closed, mem_closure]

theorem closure_closed_eq : table.closed.closure name = table.closure name := by
  obtain ⟨later, hlater⟩ := direct_prefix_closure table.closed name
  have hnodup := nodup_closure table.closed name
  rw [direct_closed, eraseDups_of_nodup (nodup_closure table name)] at hlater
  have hnone : later = [] := by
    apply List.eq_nil_iff_forall_not_mem.mpr
    intro y hy
    have hmem : y ∈ table.closed.closure name := by simp [← hlater, hy]
    rw [mem_closure, needs_closed, Relation.transGen_eq_self, ← mem_closure] at hmem
    rw [← hlater] at hnodup
    exact (List.nodup_append.mp hnodup).2.2 y hmem y hy rfl
  rw [← hlater, hnone, List.append_nil]

end Closed

section Alias

variable {table : DependencyTable} {ds visited stack found result : List String}

theorem report_of_subset (h : ds ⊆ found) : report found ds = found := by
  have hnone : ds.filter (fun d => d ∉ found) = [] := by
    simpa [List.filter_eq_nil_iff] using fun d hd => h hd
  rw [report_eq, hnone, List.eraseDups_nil, List.append_nil]

theorem schedule_of_subset (stack : List String) (h : ds ⊆ visited) :
    schedule visited stack ds.reverse = (visited, stack) := by
  have hnone : ds.dedup.filter (fun d => d ∉ visited) = [] := by
    simpa [List.filter_eq_nil_iff] using fun d hd => h hd
  rw [schedule_reverse, hnone, List.nil_append, List.nil_append]

theorem Traverses.append_idle {idle : List String} (hidle : ∀ x ∈ idle, table.direct x = ds)
    (hvisited : ds ⊆ visited) (hfound : ds ⊆ found)
    (h : table.Traverses visited stack found result) :
    table.Traverses visited (idle ++ stack) found result := by
  induction idle with
  | nil => exact h
  | cons x idle ih =>
    rw [List.forall_mem_cons] at hidle
    refine .expand x ?_
    rw [hidle.1, schedule_of_subset _ hvisited, report_of_subset hfound]
    exact ih hidle.2

/-- The names that have the list may be anywhere on the stack, and visited or not. -/
theorem Traverses.congr_idle (h : table.Traverses visited stack found result)
    {visited' stack' : List String} (hsame : ∀ x, table.direct x ≠ ds → (x ∈ visited ↔ x ∈ visited'))
    (hstack : stack'.filter (fun x => table.direct x ≠ ds) =
      stack.filter (fun x => table.direct x ≠ ds))
    (hvisited : ds ⊆ visited) (hvisited' : ds ⊆ visited') (hfound : ds ⊆ found) :
    table.Traverses visited' stack' found result := by
  induction h generalizing visited' stack' with
  | done visited found =>
    have hidle : ∀ x ∈ stack', table.direct x = ds := by
      simpa [List.filter_eq_nil_iff] using hstack
    simpa using Traverses.append_idle hidle hvisited' hfound (.done visited' found)
  | @expand visited stack found result name _ ih =>
    by_cases hname : table.direct name = ds
    · rw [hname, schedule_of_subset _ hvisited, report_of_subset hfound] at ih
      refine ih hsame ?_ hvisited hvisited' hfound
      rw [hstack, List.filter_cons_of_neg (by simpa using hname)]
    · rw [List.filter_cons_of_pos (by simpa using hname)] at hstack
      obtain ⟨idle, rest, rfl, hidle, -, hrest⟩ := List.filter_eq_cons_iff.mp hstack
      refine Traverses.append_idle (by simpa using hidle) hvisited' hfound (.expand name ?_)
      rw [schedule_reverse] at ih ⊢
      refine ih (fun x hx => ?_) ?_ ?_ ?_ fun d hd => mem_report.mpr (.inl (hfound hd))
      · simp [hsame x hx]
      · rw [List.filter_append, List.filter_append, hrest, List.filter_filter, List.filter_filter]
        congr 1
        apply List.filter_congr
        intro x _
        by_cases hx : table.direct x = ds
        · simp [hx]
        · simp [hx, hsame x hx]
      · exact List.subset_append_of_subset_right _ hvisited
      · exact List.subset_append_of_subset_right _ hvisited'

theorem closure_eq_of_direct_eq {x y : String} (h : table.direct x = table.direct y) :
    table.closure x = table.closure y := by
  refine Traverses.unique ?_ (traverses_closure table y)
  cases traverses_closure table x with
  | expand _ hx =>
    -- The first step of either search reports the whole list.
    refine .expand y ?_
    rw [h, schedule_reverse] at hx
    rw [schedule_reverse]
    refine hx.congr_idle (fun z (hz : table.direct z ≠ table.direct y) => ?_) ?_
      (fun d hd => ?_) (fun d hd => ?_) fun d hd => mem_report.mpr (.inr hd)
    · have hzx : z ≠ x := by
        rintro rfl
        exact hz h
      have hzy : z ≠ y := by
        rintro rfl
        exact hz rfl
      simp [hzx, hzy]
    · simp only [List.append_nil, List.filter_filter]
      apply List.filter_congr
      intro z _
      by_cases hz : table.direct z = table.direct y
      · simp [hz]
      · have hzx : z ≠ x := by
          rintro rfl
          exact hz h
        have hzy : z ≠ y := by
          rintro rfl
          exact hz rfl
        simp [hzx, hzy]
    · by_cases hdx : d = x <;> simp [hd, hdx]
    · by_cases hdy : d = y <;> simp [hd, hdy]

end Alias

/-- Closing is done once and for all: over a table in which every list is the closure of its name,
each known name has the closure that it had before, in the same order. The list of a provider
that is known by several names is the same whichever of them it is closed by. -/
theorem closure_closed (table : DependencyTable) (name : String) :
    table.closed.lookup name = (table.lookup name).map (fun _ => table.closure name) ∧
    table.closed.closure name = table.closure name ∧
    ∀ other, table.direct other = table.direct name →
      table.closure other = table.closure name :=
  ⟨lookup_closed table name, closure_closed_eq table name, fun _ => closure_eq_of_direct_eq⟩

example : closed [("A", ["B", "C"]), ("B", ["D", "A"])] =
    [("A", ["B", "C", "D", "A"]), ("B", ["D", "A", "B", "C"])] := by
  decide

end ModuleGraph.DependencyTable
