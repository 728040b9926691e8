import Mathlib.Data.List.Induction
import ModuleGraph.Proofs.ExtractedModule
import ModuleGraph.Proofs.Reachability
import ModuleGraph.TypeScript.Statement

/-! What the providers and imports of a file's module depend on. A provider is given the closure
of its name over what the last provider of each name declares. So of several providers with one
name, the earlier ones keep what they declare themselves only as far as the last one needs it. -/

namespace ModuleGraph

/-- The elements of the providers array in the class that a file selects. -/
def Node.providerElements (root : Node) : List Node :=
  match moduleClass? root.topLevelClasses with
  | none => []
  | some (decl, _) => (decl.configuration?.bind (·.arrayProperty? "providers")).getD []

/-- The providers that these elements describe, each with what it declares itself. -/
def Node.declaredProviders (root : Node) : List ProviderRecord :=
  root.providerElements.filterMap (provider? root)

/-- What the last provider of each name declares. -/
def lastDeclared (providers : List ProviderRecord) : DependencyTable :=
  (providers.map fun p => (p.name, p.dependencies)).reverse

section LastDeclared

variable {after : List ProviderRecord} {p : ProviderRecord}

theorem remember_eq (table : DependencyTable) (providers : List ProviderRecord) :
    remember table providers = lastDeclared providers ++ table := by
  induction providers using List.reverseRecOn with
  | nil => rfl
  | append_singleton providers p ih =>
    have hstep : remember table (providers ++ [p]) =
        (p.name, p.dependencies) :: remember table providers := by
      simp [remember]
    rw [hstep, ih]
    simp [lastDeclared]

theorem lookup_lastDeclared (providers : List ProviderRecord) (name : String) :
    (lastDeclared providers).lookup name =
      (providers.reverse.find? (fun p => p.name = name)).map (·.dependencies) := by
  induction providers using List.reverseRecOn with
  | nil => rfl
  | append_singleton providers p ih =>
    have htable : lastDeclared (providers ++ [p]) =
        (p.name, p.dependencies) :: lastDeclared providers := by
      simp [lastDeclared]
    rw [htable, List.lookup_cons, List.reverse_concat, List.find?_cons, ih]
    by_cases hname : p.name = name
    · simp [hname]
    · simp [hname, beq_false_of_ne (Ne.symm hname)]

theorem direct_last (before : List ProviderRecord) (table : DependencyTable)
    (hlast : ∀ q ∈ after, q.name ≠ p.name) :
    (lastDeclared (before ++ p :: after) ++ table).direct p.name = p.dependencies := by
  have hnone : after.reverse.find? (fun q => q.name = p.name) = none := by
    simpa [List.find?_eq_none] using hlast
  have hlookup : (lastDeclared (before ++ p :: after)).lookup p.name = some p.dependencies := by
    rw [lookup_lastDeclared]
    simp [List.reverse_append, hnone]
  rw [DependencyTable.direct, List.lookup_append, hlookup]
  rfl

end LastDeclared

section Reading

variable {root : Node} {file : String} {memory : Memory} {r : ModuleRecord}

theorem providers_readModule (h : (readModule root file memory).module = some r) :
    r.providers = enrichProviders (lastDeclared root.declaredProviders ++ memory.providers)
      root.declaredProviders := by
  obtain ⟨decl, name, hclass, ⟨hconfig, rfl⟩ | ⟨config, hconfig, h⟩⟩ := readModule_cases h
  · have hnone : root.declaredProviders = [] := by
      simp [Node.declaredProviders, Node.providerElements, hclass, hconfig]
    rw [hnone]
    rfl
  · have hsome : root.declaredProviders =
        ((config.arrayProperty? "providers").getD []).filterMap (provider? root) := by
      simp [Node.declaredProviders, Node.providerElements, hclass, hconfig]
    simp only [configuredReading, Option.some.injEq] at h
    rw [← h, hsome, remember_eq]

theorem dependencies_of_mem_imports (h : (readModule root file memory).module = some r)
    {i : ImportRecord} (hi : i ∈ r.imports) :
    i.dependencies = (((r.name, r.imports.map (·.name) ++ r.providers.map (·.name)) ::
      memory.modules).lookup i.name).getD [] := by
  obtain ⟨decl, name, -, ⟨-, rfl⟩ | ⟨config, -, h⟩⟩ := readModule_cases h
  · cases hi
  · simp only [configuredReading, Option.some.injEq] at h
    subst h
    obtain ⟨start, -, rfl⟩ := List.mem_map.mp hi
    simp [enrichImports, enrichProviders, Function.comp_def]

/-- A file that is read for the first time gives each provider the closure of its name over what
the last provider of each name declares. Its imports have no dependencies, unless one names the
module itself: that one has the names of all its imports and then of all its providers. -/
theorem readModule_enriched (h : (readModule root file {}).module = some r) :
    (∀ name, (lastDeclared root.declaredProviders).lookup name =
      (root.declaredProviders.reverse.find? (fun p => p.name = name)).map (·.dependencies)) ∧
    r.providers = root.declaredProviders.map (fun p =>
      { p with dependencies := (lastDeclared root.declaredProviders).closure p.name }) ∧
    (∀ p ∈ r.providers, p.dependencies.Nodup) ∧
    ∀ i ∈ r.imports, i.dependencies =
      if i.name = r.name then r.imports.map (·.name) ++ r.providers.map (·.name) else [] := by
  have hproviders := providers_readModule h
  rw [List.append_nil] at hproviders
  refine ⟨lookup_lastDeclared _, hproviders, fun p hp => ?_, fun i hi => ?_⟩
  · rw [hproviders] at hp
    obtain ⟨q, -, rfl⟩ := List.mem_map.mp hp
    exact DependencyTable.nodup_closure _ _
  · rw [dependencies_of_mem_imports h hi]
    by_cases hname : i.name = r.name
    · simp [hname]
    · rw [List.lookup_cons, beq_false_of_ne hname, if_neg hname]
      rfl

end Reading

/-- A file whose module imports itself, and whose providers need each other by a token that is
provided twice. -/
def selfImport : Node :=
  TypeScript.parse <| "@Module(\x7bimports:[M,N],providers:[" ++
    "\x7bprovide:'T',useFactory:f,inject:[U]\x7d,\x7bprovide:'U',useFactory:g,inject:[T]\x7d," ++
    "\x7bprovide:'T',useFactory:h,inject:[V,U]\x7d]\x7d)class M\x7b\x7d"

theorem declared_selfImport :
    ((readModule selfImport "m.module.ts" {}).module.map fun r =>
      (r.name, r.imports.map (·.name), r.providers.map (·.name))) =
        some ("M", ["M", "N"], ["T", "U", "T"]) ∧
    selfImport.declaredProviders.map (fun p => (p.name, p.dependencies)) =
      [("T", ["U"]), ("U", ["T"]), ("T", ["V", "U"])] := by
  decide +kernel

theorem readModule_enriched_selfImport : ∃ r,
    (readModule selfImport "m.module.ts" {}).module = some r ∧
    r.providers.map (·.dependencies) = [["V", "U", "T"], ["T", "V", "U"], ["V", "U", "T"]] ∧
    (∀ p ∈ r.providers, p.dependencies.Nodup) ∧
    r.imports.map (·.dependencies) = [["M", "N", "T", "U", "T"], []] := by
  obtain ⟨hread, hdeclared⟩ := declared_selfImport
  obtain ⟨r, hr, hnames⟩ := Option.map_eq_some_iff.mp hread
  simp only [Prod.mk.injEq] at hnames
  obtain ⟨hname, himported, hprovided⟩ := hnames
  obtain ⟨-, hproviders, hnodup, himports⟩ := readModule_enriched hr
  have htable : lastDeclared selfImport.declaredProviders =
      [("T", ["V", "U"]), ("U", ["T"]), ("T", ["U"])] := by
    rw [lastDeclared, hdeclared]
    rfl
  refine ⟨r, hr, ?_, hnodup, ?_⟩
  · have hclosures : r.providers.map (·.dependencies) =
        (selfImport.declaredProviders.map fun p => (p.name, p.dependencies)).map fun e =>
          (lastDeclared selfImport.declaredProviders).closure e.1 := by
      simp only [hproviders, List.map_map, Function.comp_def]
    rw [hclosures, hdeclared, htable]
    decide
  · have hlists : r.imports.map (·.dependencies) = (r.imports.map (·.name)).map fun name =>
        if name = r.name then r.imports.map (·.name) ++ r.providers.map (·.name) else [] := by
      rw [List.map_map]
      exact List.map_congr_left himports
    rw [hlists, himported, hprovided, hname]
    decide

/-- The provider that an element describes keeps what the element declares exactly as far as its
name needs it by what the last provider of each name declares. The last provider of a name
keeps all of it. -/
theorem keeps_dependencies_iff {root : Node} {file : String} {memory : Memory} {r : ModuleRecord}
    (h : (readModule root file memory).module = some r)
    {before after : List Node} {element : Node} {p : ProviderRecord}
    (helement : root.providerElements = before ++ element :: after)
    (hp : provider? root element = some p) :
    ∃ q, r.providers[(before.filterMap (provider? root)).length]? = some q ∧
      q = { p with dependencies := q.dependencies } ∧
      (p.dependencies ⊆ q.dependencies ↔ ∀ d ∈ p.dependencies, Relation.TransGen
        (lastDeclared root.declaredProviders ++ memory.providers).Needs p.name d) ∧
      ((∀ e ∈ after.filterMap (provider? root), e.name ≠ p.name) →
        p.dependencies ⊆ q.dependencies) := by
  have hdeclared : root.declaredProviders =
      before.filterMap (provider? root) ++ p :: after.filterMap (provider? root) := by
    rw [Node.declaredProviders, helement, List.filterMap_append, List.filterMap_cons_some hp]
  have hkept : ∀ d, d ∈ (lastDeclared root.declaredProviders ++ memory.providers).closure p.name ↔
      Relation.TransGen (lastDeclared root.declaredProviders ++ memory.providers).Needs p.name d :=
    fun d => DependencyTable.mem_closure
  refine ⟨{ p with dependencies :=
    (lastDeclared root.declaredProviders ++ memory.providers).closure p.name }, ?_, rfl, ?_, ?_⟩
  · rw [providers_readModule h, enrichProviders, List.getElem?_map]
    nth_rewrite 2 [hdeclared]
    simp
  · exact forall₂_congr fun d _ => hkept d
  · intro hlast d hd
    have hdirect := direct_last (before.filterMap (provider? root)) memory.providers hlast
    rw [← hdeclared] at hdirect
    have hneeds : d ∈ (lastDeclared root.declaredProviders ++ memory.providers).direct p.name := by
      rw [hdirect]
      exact hd
    exact (hkept d).mpr (.single hneeds)

/-- A file whose module provides one token twice. -/
def sharedToken : Node :=
  TypeScript.parse <| "@Module(\x7b providers: [\x7b provide: 'T', useFactory: f, inject: [A] \x7d, " ++
    "\x7b provide: 'T', useFactory: g, inject: [B] \x7d] \x7d)\nclass M \x7b\x7d"

def sharedTokenModule : ModuleRecord where
  name := "M"
  filePath := some "m.module.ts"
  providers :=
    [{ name := "T", kind := "factory", dependencies := ["B"], provide := some "T",
       useFactory := some "f", inject := some ["A"] },
     { name := "T", kind := "factory", dependencies := ["B"], provide := some "T",
       useFactory := some "g", inject := some ["B"] }]

theorem readModule_sharedToken :
    (readModule sharedToken "m.module.ts" {}).module = some sharedTokenModule ∧
    sharedToken.providerElements.map (fun e =>
      (provider? sharedToken e).map (·.dependencies)) = [some ["A"], some ["B"]] := by
  decide +kernel

theorem exists_elements_sharedToken : ∃ first second p q,
    sharedToken.providerElements = [first, second] ∧
    provider? sharedToken first = some p ∧ p.dependencies = ["A"] ∧
    provider? sharedToken second = some q ∧ q.dependencies = ["B"] := by
  have hdeclared := readModule_sharedToken.2
  have hlength : sharedToken.providerElements.length = 2 := by
    simpa using congrArg List.length hdeclared
  obtain ⟨first, second, helements⟩ := List.length_eq_two.mp hlength
  rw [helements, List.map_cons, List.map_singleton, List.cons.injEq, List.singleton_inj,
    Option.map_eq_some_iff, Option.map_eq_some_iff] at hdeclared
  obtain ⟨⟨p, hp, hfirst⟩, q, hq, hsecond⟩ := hdeclared
  exact ⟨first, second, p, q, helements, hp, hfirst, hq, hsecond⟩

/-- The first provider has lost what its own element declares. -/
theorem dependencies_sharedToken : ∃ first second p,
    sharedToken.providerElements = [first, second] ∧
    provider? sharedToken first = some p ∧ "A" ∈ p.dependencies ∧
    ∃ r q, (readModule sharedToken "m.module.ts" {}).module = some r ∧
      r.providers[0]? = some q ∧ "A" ∉ q.dependencies := by
  obtain ⟨first, second, p, -, helements, hp, hfirst, -⟩ := exists_elements_sharedToken
  refine ⟨first, second, p, helements, hp, ?_, _, _, readModule_sharedToken.1, rfl, by decide⟩
  rw [hfirst]
  exact List.mem_cons_self

/-- The second provider, which is the last of its name, keeps it. -/
theorem keeps_dependencies_sharedToken : ∃ second p,
    provider? sharedToken second = some p ∧ p.dependencies = ["B"] ∧
    ∃ q, sharedTokenModule.providers[1]? = some q ∧ p.dependencies ⊆ q.dependencies := by
  obtain ⟨first, second, p, q, helements, hp, -, hq, hsecond⟩ := exists_elements_sharedToken
  have hsplit : sharedToken.providerElements = [first] ++ second :: [] := helements
  obtain ⟨kept, hkept, -, -, hlast⟩ :=
    keeps_dependencies_iff readModule_sharedToken.1 hsplit hq
  rw [List.filterMap_cons_some hp] at hkept
  exact ⟨second, q, hq, hsecond, kept, hkept, hlast fun _ he => absurd he List.not_mem_nil⟩

end ModuleGraph
