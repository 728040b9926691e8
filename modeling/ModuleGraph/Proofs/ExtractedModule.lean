import Mathlib.Data.List.Basic
import ModuleGraph.Extraction
import ModuleGraph.Proofs.Unlinked

/-! What holds of every module that is read from a file, whatever its syntax tree looks like.
Each of its providers has its own name for its token, and it is not named like a decoy. -/

namespace ModuleGraph

section Reading

variable {root : Node} {file : String} {memory : Memory} {r : ModuleRecord}

/-- A module comes from the class that the file selects, which has a configuration object or
else gets a placeholder for its name. -/
theorem readModule_cases (h : (readModule root file memory).module = some r) :
    ∃ decl name, moduleClass? root.topLevelClasses = some (decl, name) ∧
      (decl.configuration? = none ∧ r = { name := placeholder "Module" memory.nextId } ∨
        ∃ config, decl.configuration? = some config ∧
          (configuredReading root file name config memory).module = some r) := by
  unfold readModule at h
  dsimp only at h
  cases hclass : moduleClass? root.topLevelClasses with
  | none => simp [hclass] at h
  | some c =>
    obtain ⟨decl, name⟩ := c
    refine ⟨decl, name, rfl, ?_⟩
    cases hconfig : decl.configuration? with
    | none =>
      simp only [hclass, hconfig, emptyReading, Option.some.injEq] at h
      exact .inl ⟨rfl, h.symm⟩
    | some config =>
      simp only [hclass, hconfig] at h
      exact .inr ⟨config, rfl, h⟩

theorem provide_of_objectProvider? {object : Node} {p : ProviderRecord}
    (h : objectProvider? root object = some p) : p.provide = some p.name := by
  unfold objectProvider? at h
  split at h
  · cases h
  · dsimp only at h
    split at h <;> (cases h; rfl)

theorem provide_of_provider? {element : Node} {p : ProviderRecord}
    (h : provider? root element = some p) : p.provide = some p.name := by
  unfold provider? at h
  split at h
  · cases h
    rfl
  · exact provide_of_objectProvider? h
  · cases h

/-- Every provider of a module that is read from a file has its name for its token. -/
theorem provide_of_readModule (h : (readModule root file memory).module = some r) :
    ∀ p ∈ r.providers, p.provide = some p.name := by
  obtain ⟨decl, name, -, ⟨-, rfl⟩ | ⟨config, -, h⟩⟩ := readModule_cases h
  · simp
  · simp only [configuredReading, enrichProviders, Option.some.injEq] at h
    rw [← h]
    intro p hp
    obtain ⟨q, hq, rfl⟩ := List.mem_map.mp hp
    obtain ⟨element, -, helement⟩ := List.mem_filterMap.mp hq
    have htoken := provide_of_provider? helement
    exact htoken

end Reading

theorem occursIn_iff {part cs : List Char} : occursIn part cs = true ↔ part <:+: cs := by
  induction cs with
  | nil => simp [occursIn, List.isEmpty_iff]
  | cons c cs ih =>
    rw [occursIn, Bool.or_eq_true, List.isPrefixOf_iff_prefix, ih, List.infix_cons_iff]

theorem isDecoy_iff {name : String} : isDecoy name = true ↔
    "Unknown".toList <:+: name.toList ∨ "Angular".toList <:+: name.toList := by
  simp [isDecoy, decoyParts, occursIn_iff]

/-- The name made up for an import is one that no module has. -/
theorem isDecoy_unknownModule (n : Nat) : isDecoy (placeholder "UnknownModule" n) = true := by
  have htext : (placeholder "UnknownModule" n).toList =
      "Unknown".toList ++ ("Module_".toList ++ (toString n).toList) := by
    show ("UnknownModule" ++ "_" ++ toString n).toList = _
    rw [String.toList_append]
    rfl
  rw [isDecoy_iff, htext]
  exact .inl (List.prefix_append _ _).isInfix

theorem isDecoy_of_readModule {root : Node} {file : String} {r : ModuleRecord}
    (h : (readModule root file {}).module = some r) : isDecoy r.name = false := by
  obtain ⟨decl, name, hclass, ⟨-, rfl⟩ | ⟨config, -, h⟩⟩ := readModule_cases h
  · decide
  · simp only [configuredReading, Option.some.injEq] at h
    rw [← h]
    simpa using List.find?_some hclass

/-- The module under a key is the one that a file declares, up to what its imports are linked
to, and the key is its name. -/
def Declares (root : Node) (file key : String) (r : ModuleRecord) : Prop :=
  ∃ read, (readModule root file {}).module = some read ∧ key = read.name ∧
    r.unlinked = { read.unlinked with filePath := some file }

namespace Declares

variable {root : Node} {file key : String} {r : ModuleRecord}

theorem of_readModule (h : (readModule root file {}).module = some r) :
    Declares root file r.name { r with filePath := some file } :=
  ⟨r, h, rfl, rfl⟩

theorem relinkImports (h : Declares root file key r) (m : ModuleMap) :
    Declares root file key (r.relinkImports m) := by
  obtain ⟨read, hread, hkey, hr⟩ := h
  exact ⟨read, hread, hkey, by rw [ModuleRecord.unlinked_relinkImports, hr]⟩

theorem name_eq (h : Declares root file key r) : r.name = key := by
  obtain ⟨read, -, rfl, hr⟩ := h
  exact congrArg (·.name) hr

theorem filePath_eq (h : Declares root file key r) : r.filePath = some file := by
  obtain ⟨read, -, -, hr⟩ := h
  exact congrArg (·.filePath) hr

theorem isDecoy_eq (h : Declares root file key r) : isDecoy key = false := by
  obtain ⟨read, hread, rfl, -⟩ := h
  exact isDecoy_of_readModule hread

theorem provide_eq (h : Declares root file key r) : ∀ p ∈ r.providers, p.provide = some p.name := by
  obtain ⟨read, hread, -, hr⟩ := h
  have hproviders : r.providers = read.providers := congrArg (·.providers) hr
  rw [hproviders]
  exact provide_of_readModule hread

end Declares

theorem ModuleMap.namedByToken_of_declares {m : ModuleMap}
    (h : ∀ e ∈ m.entries, ∃ root file, Declares root file e.1 e.2) : m.NamedByToken := by
  intro p hp
  obtain ⟨r, hr, hp⟩ := List.mem_flatMap.mp hp
  obtain ⟨e, he, rfl⟩ := List.mem_map.mp hr
  obtain ⟨root, file, hdeclares⟩ := h e he
  exact hdeclares.provide_eq p hp

end ModuleGraph
