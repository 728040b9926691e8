import ModuleGraph.Proofs.ProviderElements

/-! Which class a class provider describes: the one it is bound to, or else the one it is named
after. Its record agrees with this class except in two cases: an object literal that binds nothing
has no dependencies, and one that binds the empty name takes its injectability from its token. -/

namespace ModuleGraph

/-- The class that a provider describes. -/
def ProviderRecord.className (p : ProviderRecord) : String :=
  p.useClass.getD p.name

section ClassProvider

variable {root e : Node} {p : ProviderRecord}

theorem Describes.useClass (h : Describes root e p) :
    p.useClass = if e.kind = .object then e.rawField? "useClass" else none := by
  cases h with
  | bare hbare => simp [classProvider, hbare]
  | bound hobject => simp [declaredFields, hobject]
  | factory hobject => simp [declaredFields, hobject]
  | value hobject => simp [declaredFields, hobject]
  | unbound hobject => simp [declaredFields, hobject]

/-- A class provider is listed by its bare name, bound to a class, or not bound to anything. -/
theorem Describes.class_cases (h : Describes root e p) (hclass : p.kind = "class") :
    (e.kind = .identifier ∧ p.useClass = none ∧
      p.dependencies = root.constructorDependencies p.name ∧
      p.isInjectable = root.isInjectable p.name) ∨
    (e.kind ≠ .identifier ∧ ∃ c, p.useClass = some c ∧
      p.dependencies = root.constructorDependencies c ∧
      p.isInjectable = root.isInjectable (if c = "" then p.name else c)) ∨
    (e.kind ≠ .identifier ∧ p.useClass = none ∧ p.dependencies = [] ∧
      p.isInjectable = root.isInjectable p.name) := by
  have hother : e.kind = .object → e.kind ≠ .identifier := fun hobject => by simp [hobject]
  cases h with
  | bare hbare => exact .inl ⟨hbare, rfl, rfl, rfl⟩
  | bound hobject _ hbound =>
    refine .inr (.inl ⟨hother hobject, _, hbound, rfl, ?_⟩)
    simp [declaredFields, String.isEmpty_iff]
  | factory => simp at hclass
  | value => simp at hclass
  | unbound hobject _ hunbound => exact .inr (.inr ⟨hother hobject, hunbound, rfl, rfl⟩)

/-- The dependencies of a class provider are those of its class exactly if it is listed by its bare
name or bound to a class, or its class has none. Its injectability is that of its class exactly if
it is not bound to the empty name, or its token is as injectable as the empty name. -/
theorem describes_className_iff (h : provider? root e = some p) (hclass : p.kind = "class") :
    (p.useClass = if e.kind = .object then e.rawField? "useClass" else none) ∧
    (p.dependencies = root.constructorDependencies p.className ↔
      e.kind = .identifier ∨ p.useClass ≠ none ∨ root.constructorDependencies p.name = []) ∧
    (p.isInjectable = root.isInjectable p.className ↔
      p.useClass ≠ some "" ∨ root.isInjectable p.name = root.isInjectable "") := by
  have hdescribes := describes_of_provider? h
  refine ⟨hdescribes.useClass, ?_⟩
  unfold ProviderRecord.className
  rcases hdescribes.class_cases hclass with ⟨hbare, hnone, hdependencies, hinjectable⟩ |
    ⟨hbare, c, hbound, hdependencies, hinjectable⟩ | ⟨hbare, hnone, hdependencies, hinjectable⟩
  · rw [hnone, Option.getD_none]
    exact ⟨iff_of_true hdependencies (.inl hbare), iff_of_true hinjectable (.inl (by simp))⟩
  · rw [hbound, Option.getD_some, hinjectable]
    refine ⟨iff_of_true hdependencies (.inr (.inl (by simp))), ?_⟩
    by_cases hempty : c = ""
    · simp [hempty]
    · simp [hempty]
  · rw [hnone, Option.getD_none, hdependencies]
    refine ⟨⟨fun h => .inr (.inr h.symm), ?_⟩, iff_of_true hinjectable (.inl (by simp))⟩
    rintro (h | h | h)
    · exact absurd h hbare
    · exact absurd rfl h
    · exact h.symm

end ClassProvider

/-- A file whose module provides `X` without binding it, and `Y` bound to the empty name. -/
def unboundTokens : Node :=
  TypeScript.parse <| "class X \x7b constructor(a: A) \x7b\x7d \x7d\n@Injectable()\n" ++
    "class Y \x7b\x7d\n@Module(\x7b providers: [\x7b provide: X \x7d, " ++
    "\x7b provide: Y, useClass: '' \x7d] \x7d)\nclass M \x7b\x7d"

def unboundTokensModule : ModuleRecord where
  name := "M"
  filePath := some "m.module.ts"
  providers :=
    [{ name := "X", kind := "class", provide := some "X" },
     { name := "Y", kind := "class", isInjectable := true, provide := some "Y",
       useClass := some "" }]

theorem readModule_unboundTokens :
    (readModule unboundTokens "m.module.ts" {}).module = some unboundTokensModule ∧
    unboundTokens.declaredProviders = unboundTokensModule.providers ∧
    unboundTokens.constructorDependencies "X" = ["A"] ∧
    unboundTokens.isInjectable "" = false := by
  decide +kernel

/-- `X` has lost what its class asks for, and `Y` is as injectable as the class that it is not
bound to. -/
theorem className_unboundTokens :
    (readModule unboundTokens "m.module.ts" {}).module = some unboundTokensModule ∧
    (∃ p ∈ unboundTokens.declaredProviders, p.kind = "class" ∧ p.className = "X" ∧
      p.dependencies ≠ unboundTokens.constructorDependencies p.className) ∧
    ∃ p ∈ unboundTokens.declaredProviders, p.kind = "class" ∧ p.className = "" ∧
      p.isInjectable ≠ unboundTokens.isInjectable p.className := by
  obtain ⟨hread, hdeclared, hdependencies, hinjectable⟩ := readModule_unboundTokens
  rw [hdeclared]
  refine ⟨hread, ⟨_, List.mem_cons_self, rfl, rfl, ?_⟩,
    ⟨_, List.mem_cons_of_mem _ List.mem_cons_self, rfl, rfl, ?_⟩⟩
  · show [] ≠ unboundTokens.constructorDependencies "X"
    rw [hdependencies]
    simp
  · show true ≠ unboundTokens.isInjectable ""
    rw [hinjectable]
    simp

/-- `Y` still has the dependencies of the class that it is bound to. -/
theorem describes_className_unboundTokens : ∃ e p, provider? unboundTokens e = some p ∧
    p.kind = "class" ∧ p.useClass = some "" ∧
    p.dependencies = unboundTokens.constructorDependencies p.className := by
  have hmem : unboundTokensModule.providers[1] ∈ unboundTokens.declaredProviders := by
    rw [readModule_unboundTokens.2.1]
    exact List.getElem_mem _
  obtain ⟨e, -, he⟩ := List.mem_filterMap.mp hmem
  obtain ⟨-, hdependencies, -⟩ := describes_className_iff he rfl
  exact ⟨e, _, he, rfl, rfl, hdependencies.mpr (.inr (.inl (by simp [unboundTokensModule])))⟩

end ModuleGraph
