import ModuleGraph.KeyedList
import ModuleGraph.Record

/-! A mapping from names to modules that remembers the order in which names came.
A repeated name keeps its first position and takes the latest module. -/

namespace ModuleGraph

/-- Modules by name, in the order in which the names first came. -/
@[ext]
structure ModuleMap (Provider : Type := ProviderRecord) where
  entries : List (String × ModuleRecord Provider)
  nodup : (entries.map Prod.fst).Nodup

namespace ModuleMap

variable {α β : Type}

def empty : ModuleMap := ⟨[], List.nodup_nil⟩

def size (m : ModuleMap α) : Nat := m.entries.length

def find? (m : ModuleMap α) (name : String) : Option (ModuleRecord α) :=
  m.entries.lookup name

def contains (m : ModuleMap α) (name : String) : Bool :=
  (m.find? name).isSome

def insert (m : ModuleMap α) (name : String) (record : ModuleRecord α) : ModuleMap α :=
  ⟨upsert name record m.entries, nodup_keys_upsert name record m.nodup⟩

def erase (m : ModuleMap α) (name : String) : ModuleMap α where
  entries := m.entries.filter (fun e => e.1 ≠ name)
  nodup := m.nodup.sublist (List.filter_sublist.map Prod.fst)

/-- Applies a function to every record and keeps names and order. -/
def mapRecords (m : ModuleMap α) (f : ModuleRecord α → ModuleRecord β) : ModuleMap β where
  entries := m.entries.map (fun e => (e.1, f e.2))
  nodup := by simpa [Function.comp_def] using m.nodup

def names (m : ModuleMap α) : List String :=
  m.entries.map Prod.fst

def records (m : ModuleMap α) : List (ModuleRecord α) :=
  m.entries.map Prod.snd

def ofList (pairs : List (String × ModuleRecord)) : ModuleMap :=
  pairs.foldl (fun m e => m.insert e.1 e.2) empty

/-- Every provider of every module, in module order and then in list order. -/
def providers (m : ModuleMap α) : List α :=
  m.records.flatMap (·.providers)

@[simp]
theorem records_mapRecords (m : ModuleMap α) (f : ModuleRecord α → ModuleRecord β) :
    (m.mapRecords f).records = m.records.map f := by
  simp [records, mapRecords, Function.comp_def]

@[simp]
theorem find?_mapRecords (m : ModuleMap α) (f : ModuleRecord α → ModuleRecord β)
    (name : String) : (m.mapRecords f).find? name = (m.find? name).map f :=
  lookup_map_snd f name m.entries

theorem mapRecords_mapRecords {γ : Type} (m : ModuleMap α) (f : ModuleRecord α → ModuleRecord β)
    (g : ModuleRecord β → ModuleRecord γ) :
    (m.mapRecords f).mapRecords g = m.mapRecords (fun r => g (f r)) := by
  simp [mapRecords, Function.comp_def]

theorem mapRecords_congr {m : ModuleMap α} {f g : ModuleRecord α → ModuleRecord β}
    (h : ∀ r ∈ m.records, f r = g r) : m.mapRecords f = m.mapRecords g := by
  apply ModuleMap.ext
  apply List.map_congr_left
  intro e he
  rw [h e.2 (List.mem_map_of_mem he)]

theorem mapRecords_insert (m : ModuleMap α) (name : String) (record : ModuleRecord α)
    (f : ModuleRecord α → ModuleRecord β) :
    (m.insert name record).mapRecords f = (m.mapRecords f).insert name (f record) :=
  ModuleMap.ext (map_upsert f name record m.entries)

theorem mapRecords_erase (m : ModuleMap α) (name : String) (f : ModuleRecord α → ModuleRecord β) :
    (m.erase name).mapRecords f = (m.mapRecords f).erase name := by
  apply ModuleMap.ext
  simp [mapRecords, erase, List.filter_map, Function.comp_def]

theorem find?_insert (m : ModuleMap α) (name key : String) (record : ModuleRecord α) :
    (m.insert key record).find? name = if name = key then some record else m.find? name :=
  lookup_upsert key name record m.entries

theorem mem_entries_foldl_insert {pairs : List (String × ModuleRecord)} {m : ModuleMap}
    {e : String × ModuleRecord}
    (h : e ∈ (pairs.foldl (fun m e => m.insert e.1 e.2) m).entries) :
    e ∈ pairs ∨ e ∈ m.entries := by
  induction pairs generalizing m with
  | nil => exact .inr h
  | cons pair pairs ih =>
    rcases ih h with he | he
    · exact .inl (List.mem_cons_of_mem _ he)
    · rcases eq_or_mem_of_mem_upsert he with he | he
      · exact .inl (he ▸ List.mem_cons_self)
      · exact .inr he

theorem mem_entries_of_find? {m : ModuleMap α} {name : String} {r : ModuleRecord α}
    (h : m.find? name = some r) : (name, r) ∈ m.entries :=
  mem_of_lookup h

theorem mem_records_of_find? {m : ModuleMap α} {name : String} {record : ModuleRecord α}
    (h : m.find? name = some record) : record ∈ m.records :=
  List.mem_map_of_mem (mem_entries_of_find? h)

end ModuleMap

end ModuleGraph
