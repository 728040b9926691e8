import ModuleGraph.Registration

/-! Registering declarations one after the other. Of those with one name the last is kept. -/

namespace ModuleGraph

/-- The record that is kept of a declaration. -/
def Declaration.kept (d : Declaration) : ModuleRecord :=
  { d.record with filePath := some d.file }

namespace ModuleMap

def registerAll (m : ModuleMap) (ds : List Declaration) : ModuleMap :=
  ds.foldl register m

theorem find?_register (m : ModuleMap) (d : Declaration) (name : String) :
    (m.register d).find? name = if name = d.record.name then some d.kept else m.find? name :=
  find?_insert m name d.record.name d.kept

/-- The latest declaration of a name counts, and without one the name keeps its module. -/
theorem find?_registerAll (m : ModuleMap) (ds : List Declaration) (name : String) :
    (m.registerAll ds).find? name =
      ((ds.reverse.find? (fun d => d.record.name = name)).map Declaration.kept).or
        (m.find? name) := by
  induction ds generalizing m with
  | nil => rfl
  | cons d ds ih =>
    have hstep := ih (m.register d)
    rw [registerAll, List.foldl_cons, ← registerAll, hstep, find?_register, List.reverse_cons,
      List.find?_append]
    cases ds.reverse.find? (fun d => d.record.name = name) with
    | some found => rfl
    | none =>
      by_cases hname : name = d.record.name
      · simp [hname]
      · simp [hname, Ne.symm hname]

theorem mem_entries_registerAll {m : ModuleMap} {ds : List Declaration}
    {e : String × ModuleRecord} (h : e ∈ (m.registerAll ds).entries) :
    (∃ d ∈ ds, e = (d.record.name, d.kept)) ∨ e ∈ m.entries := by
  have hpairs : m.registerAll ds = (ds.map fun d => (d.record.name, d.kept)).foldl
      (fun m e => m.insert e.1 e.2) m := by
    rw [List.foldl_map]
    rfl
  rw [hpairs] at h
  rcases mem_entries_foldl_insert h with he | he
  · obtain ⟨d, hd, rfl⟩ := List.mem_map.mp he
    exact .inl ⟨d, hd, rfl⟩
  · exact .inr he

/-- The name of a declaration holds the declaration itself or a later one of that name. -/
theorem exists_find?_registerAll (m : ModuleMap) (pre : List Declaration) (d : Declaration)
    (post : List Declaration) : ∃ holder ∈ d :: post, holder.record.name = d.record.name ∧
      (m.registerAll (pre ++ d :: post)).find? d.record.name = some holder.kept := by
  have hreverse : (pre ++ d :: post).reverse = post.reverse ++ d :: pre.reverse := by simp
  rw [find?_registerAll, hreverse, List.find?_append]
  cases hlater : post.reverse.find? (fun e => e.record.name = d.record.name) with
  | some holder =>
    have hmem := List.mem_reverse.mp (List.mem_of_find?_eq_some hlater)
    have hname := List.find?_some hlater
    exact ⟨holder, List.mem_cons_of_mem _ hmem, by simpa using hname, rfl⟩
  | none => exact ⟨d, List.mem_cons_self, rfl, by simp⟩

end ModuleMap

end ModuleGraph
