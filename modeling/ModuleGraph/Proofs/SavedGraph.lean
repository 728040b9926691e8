import ModuleGraph.Proofs.DocumentJson

/-! Saving a module graph and loading what was saved. A graph comes back exactly if no entity
count has more digits than a number in a text may have, and no text holds any other graph. -/

namespace ModuleGraph

open Json (digitLimit)

/-- Loading what was saved gives the saved document, or fails for an overlong number. -/
theorem Document.yields_load_render {overlong : Prop} {d : Document} (h : d.IsJson False overlong)
    (hnames : d.WellNamed) : Json.Yields overlong (load d.render) d := by
  rw [load, render]
  rcases Json.yields_parse_render h.toValue with hparse | ⟨hlong, e, hparse⟩
  · rw [hparse]
    exact .inl (ofValue_toValue hnames)
  · rw [hparse]
    exact .inr ⟨hlong, _, rfl⟩

theorem ModuleMap.yields_load_renderJson {overlong : Prop} {m : ModuleMap}
    (h : ∀ r ∈ m.records, overlong ∨ r.entityCount.natAbs < 10 ^ digitLimit) :
    Json.Yields overlong (Document.load m.renderJson) m.document :=
  Document.yields_load_render (isJson_document h) m.wellNamed_document

theorem ModuleMap.load_renderJson {m : ModuleMap}
    (h : ∀ r ∈ m.records, r.entityCount.natAbs < 10 ^ digitLimit) :
    Document.load m.renderJson = .ok m.document :=
  (yields_load_renderJson fun r hr => .inr (h r hr)).resolve_right And.left

theorem natAbs_lt_of_record? {m : ModuleEntry} {r : ModuleRecord} (h : m.record? = some r)
    (hm : m.entityCount.IsJson True False) : r.entityCount.natAbs < 10 ^ digitLimit := by
  have hcount : m.entityCount.int? = some r.entityCount := by
    simp only [ModuleEntry.record?, Option.bind_eq_bind, Option.bind_eq_some_iff] at h
    obtain ⟨_, -, _, -, _, -, _, -, _, -, _, -, n, hn, hr⟩ := h
    rw [hn, ← Option.some.inj hr]
  cases hc : m.entityCount with
  | int n =>
    rw [hc] at hm
    rw [hc, Value.int?_int, Option.some.injEq] at hcount
    cases hm with
    | int hn => exact hcount ▸ hn.resolve_left id
  | _ => simp [hc, Value.int?] at hcount

/-- No text holds a graph with an entity count of more digits than a number may have. -/
theorem ModuleMap.natAbs_lt_of_load {text : String} {d : Document} {m : ModuleMap}
    (hload : Document.load text = .ok d) (hm : d.modules? = some m) :
    ∀ r ∈ m.records, r.entityCount.natAbs < 10 ^ digitLimit := by
  obtain ⟨v, -, -, hparse, -⟩ := Document.exists_reads_of_load hload
  have hjson := Document.isJson_of_load hparse (Json.isJson_of_parse hparse) hload
  obtain ⟨pairs, hpairs, he⟩ := Option.bind_eq_some_iff.mp hm
  rw [← Option.some.inj he]
  intro r hr
  obtain ⟨p, hp, rfl⟩ := List.mem_map.mp hr
  rcases mem_entries_foldl_insert hp with hp | hempty
  · obtain ⟨e, hmem, hf⟩ := mem_of_mapM_eq_some hpairs p hp
    simp only [Option.bind_eq_bind, Option.bind_eq_some_iff] at hf
    obtain ⟨name, -, record, hrecord, hp⟩ := hf
    rw [← Option.some.inj hp]
    exact natAbs_lt_of_record? hrecord (hjson e hmem).2.entityCount
  · simp [ModuleMap.empty] at hempty

/-- A saved graph is loaded as it was exactly if its entity counts have no more digits than a
number in a text may have. -/
theorem ModuleMap.load_renderJson_iff (m : ModuleMap) :
    (Document.load m.renderJson).map Document.modules? = .ok (some m) ↔
      ∀ r ∈ m.records, r.entityCount.natAbs < 10 ^ digitLimit := by
  constructor
  · intro h
    cases hload : Document.load m.renderJson with
    | error e => simp [hload, Except.map] at h
    | ok d =>
      simp only [hload, Except.map, Except.ok.injEq] at h
      exact natAbs_lt_of_load hload h
  · intro h
    simp [load_renderJson h, Except.map, modules?_document]

/-- A graph of one module with the given entity count and nothing else. -/
def ModuleMap.ofEntityCount (n : Int) : ModuleMap where
  entries := [("A", { name := "A", entityCount := n })]
  nodup := by simp

theorem load_renderJson_ne_of_le {n : Int} (h : 10 ^ digitLimit ≤ n.natAbs) :
    (Document.load (ModuleMap.ofEntityCount n).renderJson).map Document.modules? ≠
      .ok (some (ModuleMap.ofEntityCount n)) := by
  intro hloaded
  cases hload : Document.load (ModuleMap.ofEntityCount n).renderJson with
  | error e => simp [hload, Except.map] at hloaded
  | ok d =>
    simp only [hload, Except.map, Except.ok.injEq] at hloaded
    have hlt := ModuleMap.natAbs_lt_of_load hload hloaded { name := "A", entityCount := n }
      List.mem_cons_self
    exact Nat.not_lt.mpr h hlt

/-- The least entity count with too many digits is lost. -/
theorem load_renderJson_overlong :
    (Document.load (ModuleMap.ofEntityCount (10 ^ digitLimit)).renderJson).map
        Document.modules? ≠
      .ok (some (ModuleMap.ofEntityCount (10 ^ digitLimit))) := by
  apply load_renderJson_ne_of_le
  have hten : (10 : Int).natAbs = 10 := rfl
  rw [Int.natAbs_pow, hten]

end ModuleGraph
