import ModuleGraph.Proofs.TwoPassLinking

/-! Linking a linked graph again. The providers answer to the same names as before, so a
second run renames each dependency once more and leaves everything else alone. It changes
nothing exactly if every name that a dependency was given is already canonical. -/

namespace ModuleGraph

def ProviderRecord.withoutDependencies (p : ProviderRecord) : ProviderRecord :=
  { p with dependencies := [] }

namespace ModuleMap

theorem providers_mapRecords_relinkImports {α : Type} (m start : ModuleMap α) :
    (m.mapRecords (·.relinkImports start)).providers = m.providers := by
  simp only [providers, records_mapRecords, List.flatMap_map, ModuleRecord.relinkImports]

theorem providers_relinkDependencies (rename : String → String) (m : ModuleMap) :
    (m.relinkDependencies rename).providers = m.providers.map (·.relink rename) := by
  simp only [providers, relinkDependencies, records_mapRecords, List.flatMap_map,
    ModuleRecord.relinkProviders, List.map_flatMap]

theorem providers_linkWith (rename : String → String) (m : ModuleMap) :
    (m.linkWith rename).providers = m.providers.map (·.relink rename) := by
  rw [linkWith, providers_mapRecords_relinkImports, providers_relinkDependencies]

theorem provider?_linkWith (rename : String → String) (m : ModuleMap) (d : String) :
    (m.linkWith rename).provider? d = (m.provider? d).map (·.relink rename) := by
  rw [provider?, providers_linkWith, List.find?_map]
  rfl

theorem canonicalName_linkWith (rename : String → String) (m : ModuleMap) :
    (m.linkWith rename).canonicalName = m.canonicalName := by
  funext d
  rw [canonicalName, provider?_linkWith, Option.map_map]
  rfl

theorem linkWith_linkWith (f g : String → String) (m : ModuleMap) :
    (m.linkWith f).linkWith g = m.linkWith (g ∘ f) := by
  have hpass : (m.linkWith f).relinkDependencies g =
      (m.relinkDependencies (g ∘ f)).mapRecords
        (·.relinkImports (m.relinkDependencies f)) := by
    simp [linkWith, relinkDependencies, mapRecords_mapRecords, ModuleRecord.relinkProviders,
      ModuleRecord.relinkImports, ProviderRecord.relink, Function.comp_def]
  rw [linkWith, hpass, mapRecords_mapRecords]
  apply mapRecords_congr
  intro r _
  rw [ModuleRecord.relinkImports_relinkImports, ModuleRecord.relinkImports_mapRecords]

theorem link_link (m : ModuleMap) :
    m.link.link = m.linkWith (m.canonicalName ∘ m.canonicalName) := by
  rw [link_eq_linkInTwoPasses, link_eq_linkInTwoPasses m, linkInTwoPasses, linkInTwoPasses,
    canonicalName_linkWith, linkWith_linkWith]

/-- Two ways to rename give the same graph only if they agree on every dependency. -/
theorem linkWith_eq_linkWith_iff {f g : String → String} {m : ModuleMap} :
    m.linkWith f = m.linkWith g ↔ ∀ p ∈ m.providers, ∀ d ∈ p.dependencies, f d = g d := by
  constructor
  · intro h p hp d hd
    have hproviders := congrArg providers h
    rw [providers_linkWith, providers_linkWith] at hproviders
    have hrelink := List.map_inj_left.mp hproviders p hp
    exact List.map_inj_left.mp (congrArg ProviderRecord.dependencies hrelink) d hd
  · intro h
    have hpass : m.relinkDependencies f = m.relinkDependencies g := by
      apply mapRecords_congr
      intro r hr
      have hproviders : r.providers.map (·.relink f) = r.providers.map (·.relink g) := by
        apply List.map_congr_left
        intro p hp
        have hdependencies := List.map_congr_left (h p (List.mem_flatMap.mpr ⟨r, hr, hp⟩))
        simp only [ProviderRecord.relink, hdependencies]
      simp only [ModuleRecord.relinkProviders, hproviders]
    rw [linkWith, linkWith, hpass]

/-- However dependencies are renamed, nothing else depends on it. -/
theorem mapProviders_linkWith (f g : String → String) (m : ModuleMap) :
    (m.linkWith f).mapRecords (·.mapProviders (·.map (·.withoutDependencies))) =
      (m.linkWith g).mapRecords (·.mapProviders (·.map (·.withoutDependencies))) := by
  have hbare : ∀ rename, (fun p : ProviderRecord => (p.relink rename).withoutDependencies) =
      ProviderRecord.withoutDependencies := fun rename => rfl
  simp [linkWith, relinkDependencies, mapRecords_mapRecords, ModuleRecord.mapProviders,
    ModuleRecord.relinkImports, ModuleRecord.relinkProviders, ImportRecord.mapProviders,
    ImportRecord.relink, Snapshot.mapProviders, ModuleRecord.snapshot, Option.bind_map,
    Function.comp_def, hbare]

theorem canonicalName_canonicalName_iff {m : ModuleMap} {d : String} :
    m.canonicalName (m.canonicalName d) = m.canonicalName d ↔
      ∀ p, m.provider? d = some p → m.canonicalName p.name = p.name := by
  cases hp : m.provider? d with
  | none => simp [canonicalName, hp]
  | some p => simp [canonicalName, hp]

/-- A second run of linking changes dependencies at most. It changes none of them exactly if
each provider that a dependency asks for is known to the graph by its own name: the first
provider that answers to this name has it. -/
theorem link_link_eq_link_iff (m : ModuleMap) :
    m.link.link.mapRecords (·.mapProviders (·.map (·.withoutDependencies))) =
      m.link.mapRecords (·.mapProviders (·.map (·.withoutDependencies))) ∧
    (m.link.link = m.link ↔ ∀ p ∈ m.providers, ∀ d ∈ p.dependencies, ∀ q,
      m.provider? d = some q → m.canonicalName q.name = q.name) := by
  rw [link_link, link_eq_linkInTwoPasses, linkInTwoPasses]
  refine ⟨mapProviders_linkWith _ _ m, ?_⟩
  rw [linkWith_eq_linkWith_iff]
  simp only [Function.comp_apply, canonicalName_canonicalName_iff]

/-- A provider whose token is the name of a later one, and that later one with a token that
it asks for itself. -/
def crossedTokens : ModuleMap where
  entries := [("A", {
    name := "A"
    providers := [
      { name := "M", kind := "class", provide := some "N" },
      { name := "N", kind := "class", provide := some "T", dependencies := ["T"] }] })]
  nodup := by decide

/-- The second run turns the name that the first one wrote into another one. -/
theorem link_link_crossedTokens : crossedTokens.link.link ≠ crossedTokens.link := by
  rw [link_link, link_eq_linkInTwoPasses, linkInTwoPasses, Ne, linkWith_eq_linkWith_iff]
  decide

end ModuleMap

end ModuleGraph
