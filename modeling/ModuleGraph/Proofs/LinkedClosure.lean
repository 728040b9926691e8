import ModuleGraph.Proofs.LinkedGraph
import ModuleGraph.Proofs.Reachability
import ModuleGraph.Proofs.RepeatedLinking

/-! What a provider needs before and after linking. If no two providers answer to one name, then
everything that can be reached from a name is still reached after linking, by the canonical names
of what was reached before, and nothing else is. -/

namespace ModuleGraph

namespace DependencyTable

/-- A renaming of the names in all lists that leads nowhere else: a new name has the list of the
old one. -/
theorem mem_closure_rename {table renamed : DependencyTable} {rename : String → String}
    (hlists : ∀ x, renamed.direct x = (table.direct x).map rename)
    (hsame : ∀ x, table.direct (rename x) = table.direct x) (root y : String) :
    y ∈ renamed.closure root ↔ ∃ x ∈ table.closure root, rename x = y := by
  have hneeds : ∀ a b, renamed.Needs a b ↔ ∃ x, table.Needs a x ∧ rename x = b := by
    intro a b
    rw [Needs, hlists, List.mem_map]
    rfl
  have hfrom : ∀ a b, table.Needs (rename a) b ↔ table.Needs a b := by
    intro a b
    rw [Needs, Needs, hsame]
  simp only [mem_closure]
  constructor
  · intro h
    induction h with
    | single h =>
      obtain ⟨x, hx, rfl⟩ := (hneeds _ _).mp h
      exact ⟨x, .single hx, rfl⟩
    | tail _ h ih =>
      obtain ⟨a, ha, rfl⟩ := ih
      obtain ⟨x, hx, rfl⟩ := (hneeds _ _).mp h
      exact ⟨x, ha.tail ((hfrom a x).mp hx), rfl⟩
  · rintro ⟨x, h, rfl⟩
    induction h with
    | single h => exact .single ((hneeds _ _).mpr ⟨_, h, rfl⟩)
    | @tail a x _ h ih =>
      have hx : renamed.Needs (rename a) (rename x) :=
        (hneeds _ _).mpr ⟨x, (hfrom a x).mpr h, rfl⟩
      exact ih.tail hx

end DependencyTable

namespace ModuleMap

theorem lookup_dependencyTable (m : ModuleMap) (x : String) :
    m.dependencyTable.lookup x = (m.provider? x).map (·.dependencies) := by
  rw [dependencyTable, provider?]
  induction m.providers with
  | nil => rfl
  | cons p ps ih =>
    have hp : p.answers x = true ↔ x ∈ p.answersTo := p.answers_iff_mem
    rw [List.flatMap_cons, List.lookup_append, lookup_map_mk fun _ => p.dependencies, ih, List.find?_cons]
    by_cases hx : x ∈ p.answersTo
    · simp [hx, hp.mpr hx]
    · have hnot : p.answers x = false := Bool.eq_false_iff.mpr fun h => hx (hp.mp h)
      simp [hx, hnot]

theorem direct_dependencyTable (m : ModuleMap) (x : String) :
    m.dependencyTable.direct x = ((m.provider? x).map (·.dependencies)).getD [] := by
  rw [DependencyTable.direct, lookup_dependencyTable]

theorem direct_dependencyTable_link (m : ModuleMap) (x : String) :
    m.link.dependencyTable.direct x = (m.dependencyTable.direct x).map m.canonicalName := by
  rw [direct_dependencyTable, direct_dependencyTable, link_eq_linkInTwoPasses, linkInTwoPasses,
    provider?_linkWith]
  cases m.provider? x with
  | none => rfl
  | some p => rfl

/-- No string is a name or token of two providers, unless their records are the same. -/
def Unambiguous (m : ModuleMap) : Prop :=
  ∀ p ∈ m.providers, ∀ q ∈ m.providers, ∀ d, p.answers d → q.answers d → p = q

theorem Unambiguous.provider?_canonicalName {m : ModuleMap} (h : m.Unambiguous) (x : String) :
    m.provider? (m.canonicalName x) = m.provider? x := by
  cases hx : m.provider? x with
  | none =>
    have hname : m.canonicalName x = x := by rw [canonicalName, hx]; rfl
    rw [hname, hx]
  | some p =>
    have hname : m.canonicalName x = p.name := by rw [canonicalName, hx]; rfl
    have hp : p ∈ m.providers := List.mem_of_find?_eq_some hx
    have hown : p.answers p.name = true := by simp [ProviderRecord.answers]
    rw [hname]
    cases hq : m.provider? p.name with
    | none => exact absurd hown (List.find?_eq_none.mp hq p hp)
    | some q =>
      have hmem : q ∈ m.providers := List.mem_of_find?_eq_some hq
      have hanswers : q.answers p.name = true := List.find?_some hq
      rw [h q hmem p hp p.name hanswers hown]

/-- Linking keeps what can be reached. From any name, the graph reaches after linking what it
reached before, with every name that a provider answers to resolved to the name of this provider. -/
theorem mem_closure_link {m : ModuleMap} (h : m.Unambiguous) (root y : String) :
    y ∈ m.link.closure root ↔ ∃ x ∈ m.closure root, Resolves m.providers x y := by
  have hsame : ∀ x, m.dependencyTable.direct (m.canonicalName x) = m.dependencyTable.direct x := by
    intro x
    rw [direct_dependencyTable, h.provider?_canonicalName, direct_dependencyTable]
  have hrename := DependencyTable.mem_closure_rename m.direct_dependencyTable_link hsame root y
  rw [closure, hrename]
  simp only [resolves_iff, eq_comm (a := y)]
  rfl

/-- Two providers that need each other, one of them by its name and by its token. -/
def mutualProviders : ModuleMap where
  entries := [
    ("A", {
      name := "A"
      providers := [{ name := "Store", kind := "class", provide := some "STORE",
                      dependencies := ["Cache", "CONFIG"] }] }),
    ("B", {
      name := "B"
      providers := [{ name := "Cache", kind := "class", dependencies := ["STORE", "Store"] }] })]
  nodup := by decide

theorem mem_closure_link_mutualProviders :
    mutualProviders.Unambiguous ∧
    mutualProviders.closure "STORE" = ["Cache", "CONFIG", "STORE", "Store"] ∧
    ∀ y, y ∈ mutualProviders.link.closure "STORE" ↔ y = "Cache" ∨ y = "CONFIG" ∨ y = "Store" := by
  have hclosure : mutualProviders.closure "STORE" = ["Cache", "CONFIG", "STORE", "Store"] := by
    decide
  have hnames : ["Cache", "CONFIG", "STORE", "Store"].map mutualProviders.canonicalName =
      ["Cache", "CONFIG", "Store", "Store"] := by
    decide
  have hunambiguous : mutualProviders.Unambiguous := by
    have hkeys : ∀ p ∈ mutualProviders.providers, ∀ q ∈ mutualProviders.providers,
        (∃ d ∈ p.answersTo, d ∈ q.answersTo) → p = q := by
      decide
    intro p hp q hq d hpd hqd
    exact hkeys p hp q hq
      ⟨d, ProviderRecord.answers_iff_mem.mp hpd, ProviderRecord.answers_iff_mem.mp hqd⟩
  refine ⟨hunambiguous, hclosure, fun y => ?_⟩
  have hreached := mem_closure_link hunambiguous "STORE" y
  simp only [hclosure, resolves_iff, eq_comm (a := y)] at hreached
  rw [hreached, ← List.mem_map, hnames]
  simp

end ModuleMap

end ModuleGraph
