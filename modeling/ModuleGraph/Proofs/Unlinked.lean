import ModuleGraph.Proofs.RepeatedLinking

/-! What linking overwrites in a graph, and what it keeps. Paths and snapshots of imports are
always made afresh, so nothing that an earlier run left in them is of any effect. Dependencies
stay as they are if every provider has its own name for its token. -/

namespace ModuleGraph

def ImportRecord.unlinked (i : ImportRecord) : ImportRecord :=
  { i with path := none, snapshot := none }

/-- A module whose imports lead nowhere. -/
def ModuleRecord.unlinked (r : ModuleRecord) : ModuleRecord :=
  { r with imports := r.imports.map (·.unlinked) }

theorem ModuleRecord.relinkImports_unlinked (m : ModuleMap) (r : ModuleRecord) :
    r.unlinked.relinkImports m = r.relinkImports m := by
  simp [unlinked, relinkImports, ImportRecord.unlinked, ImportRecord.relink, Function.comp_def]

theorem ModuleRecord.unlinked_relinkImports (m : ModuleMap) (r : ModuleRecord) :
    (r.relinkImports m).unlinked = r.unlinked := by
  simp [unlinked, relinkImports, ImportRecord.unlinked, ImportRecord.relink, Function.comp_def]

namespace ModuleMap

def unlinked (m : ModuleMap) : ModuleMap :=
  m.mapRecords (·.unlinked)

/-- What an import is linked to does not depend on the imports of the module it names. -/
theorem relinkImports_of_unlinked (m : ModuleMap) (r : ModuleRecord) :
    r.relinkImports m.unlinked = r.relinkImports m := by
  apply ModuleRecord.relinkImports_congr
  simp [unlinked, mapRecords, Function.comp_def, ModuleRecord.face, ModuleRecord.unlinked,
    ModuleRecord.snapshot]

theorem relinkDependencies_unlinked (rename : String → String) (m : ModuleMap) :
    m.unlinked.relinkDependencies rename = (m.relinkDependencies rename).unlinked := by
  simp [unlinked, relinkDependencies, mapRecords_mapRecords, ModuleRecord.relinkProviders,
    ModuleRecord.unlinked]

theorem linkWith_unlinked (rename : String → String) (m : ModuleMap) :
    m.unlinked.linkWith rename = m.linkWith rename := by
  rw [linkWith, linkWith, relinkDependencies_unlinked, unlinked, mapRecords_mapRecords]
  apply mapRecords_congr
  intro r _
  rw [ModuleRecord.relinkImports_unlinked, ← unlinked, relinkImports_of_unlinked]

theorem providers_unlinked (m : ModuleMap) : m.unlinked.providers = m.providers := by
  simp only [providers, unlinked, records_mapRecords, List.flatMap_map, ModuleRecord.unlinked]

/-- Linking forgets what earlier linking left in the imports. -/
theorem link_unlinked (m : ModuleMap) : m.unlinked.link = m.link := by
  have hname : m.unlinked.canonicalName = m.canonicalName := by
    funext d
    rw [canonicalName, canonicalName, provider?, provider?, providers_unlinked]
  rw [link_eq_linkInTwoPasses, link_eq_linkInTwoPasses, linkInTwoPasses, linkInTwoPasses, hname,
    linkWith_unlinked]

theorem link_eq_of_unlinked_eq {m m' : ModuleMap} (h : m.unlinked = m'.unlinked) :
    m.link = m'.link := by
  rw [← link_unlinked, h, link_unlinked]

/-- Every provider of a graph has its own name for its token. -/
def NamedByToken (m : ModuleMap) : Prop :=
  ∀ p ∈ m.providers, p.provide = some p.name

theorem NamedByToken.canonicalName_eq {m : ModuleMap} (h : m.NamedByToken) :
    m.canonicalName = id := by
  funext d
  cases hp : m.provider? d with
  | none =>
    rw [canonicalName, hp]
    rfl
  | some p =>
    have hd : p.answers d = true := List.find?_some hp
    have htoken := h p (List.mem_of_find?_eq_some hp)
    rw [ProviderRecord.answers, htoken] at hd
    rw [canonicalName, hp]
    simpa using hd

/-- Linking such a graph changes nothing but the imports. -/
theorem NamedByToken.link_eq {m : ModuleMap} (h : m.NamedByToken) :
    m.link = m.mapRecords (·.relinkImports m) := by
  have hsame : m.relinkDependencies id = m := by
    apply ModuleMap.ext
    simp [relinkDependencies, mapRecords, ModuleRecord.relinkProviders, ProviderRecord.relink]
  rw [link_eq_linkInTwoPasses, linkInTwoPasses, h.canonicalName_eq, linkWith, hsame]

theorem NamedByToken.unlinked_link {m : ModuleMap} (h : m.NamedByToken) :
    m.link.unlinked = m.unlinked := by
  rw [h.link_eq, unlinked, mapRecords_mapRecords]
  exact mapRecords_congr fun r _ => r.unlinked_relinkImports m

end ModuleMap

end ModuleGraph
