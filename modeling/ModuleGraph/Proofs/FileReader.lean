import ModuleGraph.Proofs.ConfinedMemory
import ModuleGraph.Proofs.KeptModules

/-! A reader of one file returns again and again what a new reader returns that starts with the
same placeholder number. What its caches tell by name is what is remembered of readings that
share no records, and this holds nothing but the names that the file gives to its own module and
providers. -/

namespace ModuleGraph

namespace FileReader

variable {reader : FileReader} {memory : Memory} {root : Node} {file : String}

theorem snapshot_importRecords (root : Node) (n : Nat) (elements : List Node) :
    ∀ i ∈ (importRecords root n elements).1, i.snapshot = none := by
  induction elements generalizing n with
  | nil => simp [importRecords]
  | cons e es ih =>
    rw [importRecords]
    cases e.importTarget? with
    | none => exact List.forall_mem_cons.mpr ⟨rfl, ih (n + 1)⟩
    | some target => exact List.forall_mem_cons.mpr ⟨rfl, ih n⟩

theorem snapshot_of_draft {name : String} {n next : Nat} {config? : Option Node}
    {draft : ModuleRecord} (hdraft : draftModule root file name n config? = (draft, next)) :
    ∀ i ∈ draft.imports, i.snapshot = none := by
  cases config? with
  | none =>
    rw [draftModule, Prod.mk.injEq] at hdraft
    rw [← hdraft.1]
    exact List.forall_mem_nil _
  | some config =>
    rw [draftModule, Prod.mk.injEq] at hdraft
    rw [← hdraft.1]
    exact snapshot_importRecords root n _

theorem snapshot_filled {draft : ModuleRecord} (h : ∀ i ∈ draft.imports, i.snapshot = none)
    (memory : Memory) : ∀ i ∈ (draft.filled memory).imports, i.snapshot = none :=
  List.forall_mem_map.mpr h

/-- The caches of a reader tell by name what is remembered. -/
structure Represents (reader : FileReader) (memory : Memory) : Prop where
  bounded : reader.Bounded
  nextId : reader.nextId = memory.nextId
  listed : ∀ x, reader.listed? x = memory.modules.lookup x
  table : ∀ x, reader.table.lookup x = memory.providers.lookup x

theorem represents_fresh (n : Nat) : Represents { nextId := n } { nextId := n } :=
  ⟨⟨by simp, by simp, by simp⟩, rfl, fun _ => rfl, fun _ => rfl⟩

namespace Represents

theorem withNextId (h : reader.Represents memory) (n : Nat) :
    Represents { reader with nextId := n } { memory with nextId := n } :=
  ⟨⟨h.bounded.modules, h.bounded.providerCache, h.bounded.moduleCache⟩, rfl, h.listed, h.table⟩

section Draft

variable {draft : ModuleRecord}

theorem listed_keep (h : reader.Represents memory)
    (hshown : ∀ i ∈ draft.imports, i.snapshot = none) (x : String) :
    (reader.keep draft).listed? x = ((draft.name, draft.listed) :: memory.modules).lookup x := by
  rw [listed?_keep h.bounded hshown, h.listed, List.lookup_cons]
  by_cases hx : x = draft.name
  · simp [hx]
  · rw [if_neg hx, beq_false_of_ne hx]

theorem fill (h : reader.Represents memory) (hshown : ∀ i ∈ draft.imports, i.snapshot = none) :
    ((reader.keep draft).fillImports reader.modules.size).fillProviders
      (cellsFrom reader.store.size draft.providers) = reader.keep (draft.filled memory) := by
  have hclosure : ∀ x, (reader.keep draft).table.closure x =
      (lastDeclared draft.providers ++ memory.providers).closure x := by
    apply DependencyTable.closure_congr
    intro x
    rw [DependencyTable.direct, DependencyTable.direct, table_keep h.bounded, List.lookup_append,
      List.lookup_append, h.table]
  rw [fill_keep, ModuleRecord.filled, enrichImports, enrichProviders]
  simp only [h.listed_keep hshown, hclosure]

theorem keep_filled (h : reader.Represents memory)
    (hshown : ∀ i ∈ draft.imports, i.snapshot = none) :
    (reader.keep (draft.filled memory)).Represents
      { nextId := memory.nextId
        modules := (draft.name, draft.listed) :: memory.modules
        providers := lastDeclared (draft.filled memory).providers ++
          (lastDeclared draft.providers ++ memory.providers) } := by
  have hfilled := snapshot_filled hshown memory
  refine ⟨h.bounded.keep hfilled, by rw [keep_eq]; exact h.nextId, fun x => ?_, fun x => ?_⟩
  · have hlisted := h.listed_keep hfilled x
    rwa [ModuleRecord.listed_filled] at hlisted
  · rw [table_keep h.bounded, List.lookup_append, List.lookup_append, List.lookup_append, h.table]
    -- The entries of the draft itself lie below those that replace them.
    cases hnew : (lastDeclared (draft.filled memory).providers).lookup x with
    | some ds => rfl
    | none =>
      have hdraft : (lastDeclared draft.providers).lookup x = none := by
        rw [lookup_eq_none_iff_notMem, mem_keys_lastDeclared] at hnew ⊢
        rwa [ModuleRecord.names_filled] at hnew
      rw [hdraft]
      rfl

end Draft

/-- A reading keeps the module that is read from what is remembered, or it keeps nothing. -/
theorem read_cases (h : reader.Represents memory) (root : Node) (file : String) :
    (reader.read root file = ⟨none, reader, (readModule root file memory).notices⟩ ∧
      (readModule root file memory).module = none ∧
      (readModule root file memory).memory = memory) ∨
    ∃ m next, reader.read root file =
        ⟨some reader.modules.size, ({ reader with nextId := next } : FileReader).keep m,
          (readModule root file memory).notices⟩ ∧
      (readModule root file memory).module = some m ∧
      (∀ i ∈ m.imports, i.snapshot = none) ∧
      (({ reader with nextId := next } : FileReader).keep m).Represents
        (readModule root file memory).memory := by
  cases hclass : moduleClass? root.topLevelClasses with
  | none =>
    left
    rw [readModule_of_none hclass]
    simp [read, hclass]
  | some c =>
    right
    obtain ⟨decl, name⟩ := c
    rcases hdraft : draftModule root file name memory.nextId decl.configuration? with ⟨draft, next⟩
    have hshown := snapshot_of_draft hdraft
    have hnext := h.withNextId next
    refine ⟨draft.filled memory, next, ?_, ?_, snapshot_filled hshown memory, ?_⟩
    · rw [readModule_of_some hclass hdraft, read]
      simp only [hclass, h.nextId, hdraft]
      rw [hnext.fill hshown]
      rfl
    · rw [readModule_of_some hclass hdraft]
    · rw [readModule_of_some hclass hdraft]
      exact hnext.keep_filled hshown

section Read

variable (h : reader.Represents memory) (root : Node) (file : String)
include h

theorem read : (reader.read root file).reader.Represents (readModule root file memory).memory := by
  rcases h.read_cases root file with ⟨hread, -, hmemory⟩ | ⟨m, next, hread, -, -, hkeep⟩
  · rw [hread, hmemory]
    exact h
  · rw [hread]
    exact hkeep

theorem module_read : (reader.read root file).module = (readModule root file memory).module := by
  rcases h.read_cases root file with ⟨hread, hnone, -⟩ | ⟨m, next, hread, hsome, hshown, -⟩
  · rw [hread, hnone]
    rfl
  · rw [hread, hsome, Outcome.module, Option.bind_some]
    exact module?_keep_self { reader with nextId := next } hshown

theorem notices_read : (reader.read root file).notices = (readModule root file memory).notices := by
  rcases h.read_cases root file with ⟨hread, -, -⟩ | ⟨m, next, hread, -, -, -⟩ <;> rw [hread]

theorem module?_read_of_lt {place : Nat} (hplace : place < reader.modules.size) :
    (reader.read root file).reader.module? place = reader.module? place := by
  rcases h.read_cases root file with ⟨hread, -, -⟩ | ⟨m, next, hread, -, -, -⟩
  · rw [hread]
  · rw [hread]
    exact module?_keep_of_lt (h.withNextId next).bounded m hplace

theorem size_read : reader.modules.size ≤ (reader.read root file).reader.modules.size := by
  rcases h.read_cases root file with ⟨hread, -, -⟩ | ⟨m, next, hread, -, -, -⟩
  · rw [hread]
  · rw [hread, keep_eq]
    simp

theorem lt_size_read {place : Nat} (hplace : (reader.read root file).place = some place) :
    place < (reader.read root file).reader.modules.size := by
  rcases h.read_cases root file with ⟨hread, -, -⟩ | ⟨m, next, hread, -, -, -⟩
  · rw [hread] at hplace
    cases hplace
  · rw [hread] at hplace ⊢
    cases hplace
    rw [keep_eq]
    simp

end Read

theorem module?_after_of_lt (h : reader.Represents memory) (root : Node) (file : String)
    (times : Nat) {place : Nat} (hplace : place < reader.modules.size) :
    (reader.after root file times).module? place = reader.module? place := by
  induction times generalizing reader memory with
  | zero => rfl
  | succ times ih =>
    have hsize := h.size_read root file
    rw [after, ih (h.read root file) (by omega), h.module?_read_of_lt root file hplace]

/-- The module that a reading returns is not changed by any later reading. -/
theorem module?_after_read (h : reader.Represents memory) (root : Node) (file : String)
    (times : Nat) :
    (reader.read root file).place.bind
        ((reader.read root file).reader.after root file times).module? =
      (reader.read root file).module := by
  rw [Outcome.module]
  cases hplace : (reader.read root file).place with
  | none => rfl
  | some place =>
    exact module?_after_of_lt (h.read root file) root file times (h.lt_size_read root file hplace)

theorem after (h : reader.Represents memory) (hconfined : memory.Confined root) (file : String)
    (times : Nat) :
    ∃ later, (reader.after root file times).Represents later ∧ later.Confined root ∧
      later.nextId = memory.nextId + times * root.placeholderCount := by
  induction times generalizing reader memory with
  | zero => exact ⟨memory, h, hconfined, by omega⟩
  | succ times ih =>
    obtain ⟨later, hlater, hlaterConfined, hnext⟩ :=
      ih (h.read root file) (hconfined.readModule file)
    refine ⟨later, hlater, hlaterConfined, ?_⟩
    rw [hnext, nextId_readModule, Nat.succ_mul]
    omega

/-- Readings whose records are shared show in the end what readings without shared records do. -/
theorem rereadModules_eq (h : reader.Represents memory) (root : Node) (file : String)
    (times : Nat) : rereadModules root file times reader = readModules root file times memory := by
  induction times generalizing reader memory with
  | zero => rfl
  | succ times ih =>
    have hfirst := h.module?_after_read root file times
    have hrest := ih (h.read root file)
    rw [rereadModules, outcomes, FileReader.after, List.map_cons, List.flatMap_cons, hfirst,
      h.module_read, h.notices_read, readModules, ← hrest, rereadModules]

end Represents

theorem nextId_read (root : Node) (file : String) (reader : FileReader) :
    (reader.read root file).reader.nextId = reader.nextId + root.placeholderCount := by
  cases hclass : moduleClass? root.topLevelClasses with
  | none => simp [read, hclass, Node.placeholderCount]
  | some c =>
    obtain ⟨decl, name⟩ := c
    rcases hdraft : draftModule root file name reader.nextId decl.configuration? with ⟨draft, next⟩
    have hnext := next_of_draft hclass hdraft
    simp only [read, hclass, hdraft]
    rw [fill_keep { reader with nextId := next }, keep_eq]
    exact hnext

/-- Nothing but the count of placeholders passes from one reading to the next. Each reading counts
on by the same number, whatever the reader has read before. Having read the file `k` times, a
reader returns the module that a new reader returns whose count starts that much further on, and
however often it reads the file after that, this module stays as it is. -/
theorem read_after (root : Node) (file : String) :
    (∀ reader : FileReader,
      (reader.read root file).reader.nextId = reader.nextId + root.placeholderCount) ∧
    ∀ k,
      let outcome := (after root file k {}).read root file
      outcome.module =
        (read root file { nextId := 1 + k * root.placeholderCount }).module ∧
      ∀ times, outcome.place.bind (outcome.reader.after root file times).module? =
        outcome.module := by
  refine ⟨nextId_read root file, fun k => ?_⟩
  have hstart := represents_fresh 1
  have hempty := Memory.Confined.empty root 1
  obtain ⟨memory, hmemory, hconfined, hnext⟩ := hstart.after hempty file k
  refine ⟨?_, hmemory.module?_after_read root file⟩
  rw [hmemory.module_read root file, hconfined.module_readModule file, hnext,
    (represents_fresh _).module_read root file]

end FileReader

end ModuleGraph
