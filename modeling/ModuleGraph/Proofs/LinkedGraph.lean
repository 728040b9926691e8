import Mathlib.Data.List.Forall2
import ModuleGraph.Proofs.TwoPassLinking

/-! What it means for a graph to be the linked form of another, stated field by field and
without the index. Linking gives a linked form, and there is no other. -/

namespace ModuleGraph

/-- How a scan over all providers in order resolves a dependency: to the name of the first
provider that has it for its name or token, and to itself if there is none. -/
inductive Resolves (providers : List ProviderRecord) (d : String) : String → Prop where
  | found {before after : List ProviderRecord} {p : ProviderRecord}
      (hsplit : providers = before ++ p :: after)
      (hbefore : ∀ q ∈ before, q.name ≠ d ∧ q.provide ≠ some d)
      (hp : p.name = d ∨ p.provide = some d) : Resolves providers d p.name
  | unknown (h : ∀ q ∈ providers, q.name ≠ d ∧ q.provide ≠ some d) : Resolves providers d d

/-- A provider record before and after linking in a graph. -/
structure ProviderRecord.Linked (m : ModuleMap) (p q : ProviderRecord) : Prop where
  dependencies : List.Forall₂ (Resolves m.providers) p.dependencies q.dependencies
  rest : { q with dependencies := p.dependencies } = p

/-- An import before and after linking to the modules of a linked graph. -/
structure ImportRecord.Linked (linked : ModuleMap) (i j : ImportRecord) : Prop where
  known : ∀ t, linked.find? i.name = some t →
    j.path = t.filePath ∧ j.snapshot = some ⟨t.name, t.providers, t.controllers⟩
  unknown : linked.find? i.name = none → j.path = none ∧ j.snapshot = none
  rest : { j with path := i.path, snapshot := i.snapshot } = i

/-- A module of a graph and the module in its place in the linked graph. -/
structure ModuleRecord.Linked (m linked : ModuleMap) (r s : ModuleRecord) : Prop where
  imports : List.Forall₂ (ImportRecord.Linked linked) r.imports s.imports
  providers : List.Forall₂ (ProviderRecord.Linked m) r.providers s.providers
  rest : { s with imports := r.imports, providers := r.providers } = r

/-- A graph and its linked form: the same names in the same order, with linked modules. -/
def ModuleMap.Linked (m linked : ModuleMap) : Prop :=
  List.Forall₂ (fun e f => f.1 = e.1 ∧ e.2.Linked m linked f.2) m.entries linked.entries

theorem forall₂_iff_eq_map {α β : Type} {r : α → β → Prop} {f : α → β}
    (h : ∀ a b, r a b ↔ b = f a) (as : List α) (bs : List β) :
    List.Forall₂ r as bs ↔ bs = as.map f := by
  induction as generalizing bs with
  | nil => simp
  | cons a as ih =>
    cases bs with
    | nil => simp
    | cons b bs => rw [List.forall₂_cons, h, ih, List.map_cons, List.cons.injEq]

theorem ProviderRecord.answers_eq_false {d : String} {p : ProviderRecord} :
    p.answers d = false ↔ p.name ≠ d ∧ p.provide ≠ some d := by
  simp [answers]

theorem resolves_iff {m : ModuleMap} {d e : String} :
    Resolves m.providers d e ↔ e = m.canonicalName d := by
  constructor
  · intro h
    cases h with
    | @found before after p hsplit hbefore hp =>
      have hb : before.find? (·.answers d) = none :=
        List.find?_eq_none.mpr fun q hq =>
          Bool.eq_false_iff.mp (ProviderRecord.answers_eq_false.mpr (hbefore q hq))
      have hpd : p.answers d = true := by simpa [ProviderRecord.answers] using hp
      simp [ModuleMap.canonicalName, ModuleMap.provider?, hsplit, List.find?_append, hb, hpd]
    | unknown h =>
      have hn : m.providers.find? (·.answers d) = none :=
        List.find?_eq_none.mpr fun q hq =>
          Bool.eq_false_iff.mp (ProviderRecord.answers_eq_false.mpr (h q hq))
      simp [ModuleMap.canonicalName, ModuleMap.provider?, hn]
  · rintro rfl
    cases hp : m.provider? d with
    | none =>
      have hn := List.find?_eq_none.mp hp
      rw [ModuleMap.canonicalName, hp]
      exact .unknown fun q hq =>
        ProviderRecord.answers_eq_false.mp (Bool.eq_false_iff.mpr (hn q hq))
    | some p =>
      obtain ⟨hpd, before, after, hsplit, hbefore⟩ := List.find?_eq_some_iff_append.mp hp
      rw [ModuleMap.canonicalName, hp]
      refine .found hsplit (fun q hq => ?_) (by simpa [ProviderRecord.answers] using hpd)
      exact ProviderRecord.answers_eq_false.mp (by simpa using hbefore q hq)

theorem ProviderRecord.linked_iff {m : ModuleMap} {p q : ProviderRecord} :
    p.Linked m q ↔ q = p.relink m.canonicalName := by
  have hd := forall₂_iff_eq_map (f := m.canonicalName) (fun _ _ => resolves_iff)
    p.dependencies q.dependencies
  constructor
  · rintro ⟨hdependencies, hrest⟩
    rw [relink, ← hd.mp hdependencies, ← hrest]
  · rintro rfl
    exact ⟨hd.mpr rfl, rfl⟩

theorem ImportRecord.linked_iff {linked : ModuleMap} {i j : ImportRecord} :
    i.Linked linked j ↔ j = i.relink linked := by
  constructor
  · rintro ⟨hknown, hunknown, hrest⟩
    have hfields : j.path = (linked.find? i.name).bind (·.filePath) ∧
        j.snapshot = (linked.find? i.name).map (·.snapshot) := by
      cases ht : linked.find? i.name with
      | none => exact hunknown ht
      | some t => exact hknown t ht
    rw [relink, ← hfields.1, ← hfields.2, ← hrest]
  · rintro rfl
    refine ⟨fun t ht => ?_, fun ht => ?_, rfl⟩
    · simp [relink, ht, ModuleRecord.snapshot]
    · simp [relink, ht]

theorem ModuleRecord.linked_iff {m linked : ModuleMap} {r s : ModuleRecord} :
    r.Linked m linked s ↔ s = (r.relinkProviders m.canonicalName).relinkImports linked := by
  have hi := forall₂_iff_eq_map (f := (·.relink linked)) (fun _ _ => ImportRecord.linked_iff)
    r.imports s.imports
  have hp := forall₂_iff_eq_map (f := (·.relink m.canonicalName))
    (fun _ _ => ProviderRecord.linked_iff) r.providers s.providers
  constructor
  · rintro ⟨himports, hproviders, hrest⟩
    rw [relinkImports, relinkProviders, ← hi.mp himports, ← hp.mp hproviders, ← hrest]
  · rintro rfl
    exact ⟨hi.mpr rfl, hp.mpr rfl, rfl⟩

theorem ModuleMap.linked_iff {m linked : ModuleMap} :
    m.Linked linked ↔
      linked = (m.relinkDependencies m.canonicalName).mapRecords (·.relinkImports linked) := by
  have he : ∀ e f : String × ModuleRecord, (f.1 = e.1 ∧ e.2.Linked m linked f.2) ↔
      f = (e.1, (e.2.relinkProviders m.canonicalName).relinkImports linked) := by
    intro e f
    rw [ModuleRecord.linked_iff, Prod.ext_iff]
  rw [Linked, forall₂_iff_eq_map he, relinkDependencies, mapRecords_mapRecords, ModuleMap.ext_iff]
  rfl

theorem ModuleMap.eq_mapRecords_relinkImports_iff {m linked : ModuleMap} :
    linked = m.mapRecords (·.relinkImports linked) ↔
      linked = m.mapRecords (·.relinkImports m) := by
  have hsame : ∀ start, linked = m.mapRecords (·.relinkImports start) →
      m.mapRecords (·.relinkImports linked) = m.mapRecords (·.relinkImports m) := by
    intro start h
    rw [h]
    exact mapRecords_congr fun r _ => r.relinkImports_mapRecords m start
  constructor
  · intro h
    exact h.trans (hsame linked h)
  · intro h
    exact h.trans (hsame m h).symm

/-- Linking refines the naive linker of two passes, and its result is the only one that the
description in terms of single fields allows. -/
theorem ModuleMap.linked_iff_eq_link (m linked : ModuleMap) :
    m.Linked linked ↔ linked = m.link := by
  rw [linked_iff, eq_mapRecords_relinkImports_iff, link_eq_linkInTwoPasses]
  rfl

end ModuleGraph
