import ModuleGraph.Proofs.SavedGraph

/-! Loading brings a document into its normal form, whatever shapes its fields have. What a text
without decimal numbers is loaded as is loaded again from its own rendering. A name that comes
several times stands where it came first and holds the module that came last. -/

namespace ModuleGraph

namespace Value

mutual

/-- The decimal numbers in a value, with infinities and what is no number. -/
def decimals : Value → List String
  | .decimal literal => [literal]
  | .list items => decimalsOfItems items
  | .table entries => decimalsOfEntries entries
  | _ => []

def decimalsOfItems : List Value → List String
  | [] => []
  | v :: vs => v.decimals ++ decimalsOfItems vs

def decimalsOfEntries : List (String × Value) → List String
  | [] => []
  | (_, v) :: es => v.decimals ++ decimalsOfEntries es

end

theorem decimalsOfItems_eq_nil {vs : List Value} :
    decimalsOfItems vs = [] ↔ ∀ v ∈ vs, v.decimals = [] := by
  induction vs with
  | nil => simp [decimalsOfItems]
  | cons v vs ih => rw [decimalsOfItems, List.append_eq_nil_iff, ih, List.forall_mem_cons]

theorem decimalsOfEntries_eq_nil {es : List (String × Value)} :
    decimalsOfEntries es = [] ↔ ∀ e ∈ es, e.2.decimals = [] := by
  induction es with
  | nil => simp [decimalsOfEntries]
  | cons e es ih => rw [decimalsOfEntries, List.append_eq_nil_iff, ih, List.forall_mem_cons]

section IsJson

variable {decimals overlong : Prop}

theorem isJson_list_iff {vs : List Value} :
    (Value.list vs).IsJson decimals overlong ↔ ∀ v ∈ vs, v.IsJson decimals overlong :=
  ⟨fun | .list h => h, .list⟩

theorem isJson_table_iff {es : List (String × Value)} :
    (Value.table es).IsJson decimals overlong ↔
      (es.map Prod.fst).Nodup ∧ ∀ e ∈ es, e.2.IsJson decimals overlong :=
  ⟨fun | .table hkeys h => ⟨hkeys, h⟩, fun h => .table h.1 h.2⟩

end IsJson

theorem IsJson.of_decimals_eq_nil {overlong : Prop} {v : Value} (h : v.IsJson True overlong)
    (hdecimals : v.decimals = []) : v.IsJson False overlong := by
  induction h with
  | null => exact .null
  | bool b => exact .bool b
  | int h => exact .int h
  | decimal literal => simp [decimals] at hdecimals
  | text s => exact .text s
  | list h ih =>
    rw [decimals, decimalsOfItems_eq_nil] at hdecimals
    exact .list fun v hv => ih v hv (hdecimals v hv)
  | table hkeys h ih =>
    rw [decimals, decimalsOfEntries_eq_nil] at hdecimals
    exact .table hkeys fun e he => ih e he (hdecimals e he)

end Value

namespace Document

/-- What a name is told from others by: a truth value is the same name as the number it stands
for. -/
def nameKey : Value → Value
  | .bool b => .int (if b then 1 else 0)
  | v => v

/-- A value that may be a name in a text without decimal numbers. -/
def IsName (v : Value) : Prop :=
  v.isAtomic = true ∧ v.IsJson False False

theorem sameName_iff {a b : Value} (ha : IsName a) (hb : IsName b) :
    sameName a b = true ↔ nameKey a = nameKey b := by
  obtain ⟨hatomic, hajson⟩ := ha
  obtain ⟨hbtomic, hbjson⟩ := hb
  cases hajson with
  | null => cases hbjson <;> simp_all [sameName, nameKey, number?, Value.isAtomic]
  | bool => cases hbjson <;> simp_all [sameName, nameKey, number?, Value.isAtomic]
  | int => cases hbjson <;> simp_all [sameName, nameKey, number?, Value.isAtomic]
  | text => cases hbjson <;> simp_all [sameName, nameKey, number?, Value.isAtomic]
  | decimal _ h => exact h.elim
  | list => simp [Value.isAtomic] at hatomic
  | table => simp [Value.isAtomic] at hatomic

theorem sameName_congr {a b c : Value} (ha : IsName a) (hb : IsName b) (hc : IsName c)
    (h : sameName a b = true) : sameName a c = sameName b c := by
  rw [sameName_iff ha hb] at h
  rw [Bool.eq_iff_iff, sameName_iff ha hc, sameName_iff hb hc, h]

theorem eraseDupsBy_concat {α : Type} (r : α → α → Bool) (xs : List α) (x : α) :
    (xs ++ [x]).eraseDupsBy r =
      if (xs.eraseDupsBy r).any (r x) then xs.eraseDupsBy r else xs.eraseDupsBy r ++ [x] := by
  have hloop : ∀ kept, List.eraseDupsBy.loop r (xs ++ [x]) kept =
      if (List.eraseDupsBy.loop r xs kept).any (r x) then List.eraseDupsBy.loop r xs kept
      else List.eraseDupsBy.loop r xs kept ++ [x] := by
    induction xs with
    | nil =>
      intro kept
      cases hx : kept.any (r x) <;> simp [List.eraseDupsBy.loop, hx]
    | cons y xs ih =>
      intro kept
      cases hy : kept.any (r y) <;> simp [List.eraseDupsBy.loop, hy, ih]
  exact hloop []

theorem map_fst_put (name : Value) (m : ModuleEntry) (d : Document) :
    (put name m d).map Prod.fst =
      if (d.map Prod.fst).any (fun k => sameName k name) then d.map Prod.fst
      else d.map Prod.fst ++ [name] := by
  induction d with
  | nil => rfl
  | cons e d ih =>
    obtain ⟨k, v⟩ := e
    cases hk : sameName k name with
    | true => simp [put, hk]
    | false =>
      simp only [put, hk, Bool.false_eq_true, if_false, List.map_cons, List.any_cons,
        Bool.false_or, ih]
      split <;> rfl

theorem putAll_concat (d : Document) (pairs : List (Value × ModuleEntry))
    (e : Value × ModuleEntry) : d.putAll (pairs ++ [e]) = put e.1 e.2 (d.putAll pairs) := by
  simp [putAll]

theorem map_fst_putAll (pairs : List (Value × ModuleEntry)) :
    (putAll [] pairs).map Prod.fst =
      (pairs.map Prod.fst).eraseDupsBy fun later earlier => sameName earlier later := by
  induction pairs using List.reverseRecOn with
  | nil => rfl
  | append_singleton pairs e ih =>
    rw [putAll_concat, map_fst_put, ih, List.map_append, List.map_singleton, eraseDupsBy_concat]

theorem forall_names_put {p : Value → Prop} {d : Document} {name : Value}
    (h : ∀ k ∈ d.map Prod.fst, p k) (hname : p name) (m : ModuleEntry) :
    ∀ k ∈ (put name m d).map Prod.fst, p k := by
  rw [map_fst_put]
  split
  · exact h
  · exact List.forall_mem_append.mpr ⟨h, List.forall_mem_singleton.mpr hname⟩

theorem forall_names_putAll {p : Value → Prop} {pairs : List (Value × ModuleEntry)}
    (h : ∀ e ∈ pairs, p e.1) : ∀ k ∈ (putAll [] pairs).map Prod.fst, p k := by
  induction pairs using List.reverseRecOn with
  | nil => exact fun _ hk => absurd hk List.not_mem_nil
  | append_singleton pairs e ih =>
    rw [List.forall_mem_append, List.forall_mem_singleton] at h
    rw [putAll_concat]
    exact forall_names_put (ih h.1) h.2 e.2

theorem distinct_put {d : Document} (h : (d.map Prod.fst).Pairwise fun a b => sameName a b = false)
    (name : Value) (m : ModuleEntry) :
    ((put name m d).map Prod.fst).Pairwise fun a b => sameName a b = false := by
  rw [map_fst_put]
  split
  · exact h
  · rename_i hnew
    rw [List.pairwise_append]
    refine ⟨h, List.pairwise_singleton _ _, fun k hk x hx => ?_⟩
    rw [List.mem_singleton.mp hx]
    simpa using fun hsame => hnew (List.any_eq_true.mpr ⟨k, hk, hsame⟩)

theorem wellNamed_putAll {pairs : List (Value × ModuleEntry)}
    (h : ∀ e ∈ pairs, e.1.isAtomic = true) : (putAll [] pairs).WellNamed := by
  refine ⟨forall_names_putAll h, ?_⟩
  clear h
  induction pairs using List.reverseRecOn with
  | nil => exact .nil
  | append_singleton pairs e ih =>
    rw [putAll_concat]
    exact distinct_put ih e.1 e.2

/-- A name that is put holds the new module, and so does every name that is the same. -/
theorem find?_put {name k : Value} {d : Document} (hname : IsName name) (hk : IsName k)
    (hd : ∀ k' ∈ d.map Prod.fst, IsName k') (m : ModuleEntry) :
    ((put k m d).find? (fun e => sameName e.1 name)).map Prod.snd =
      if sameName k name then some m
      else (d.find? (fun e => sameName e.1 name)).map Prod.snd := by
  induction d with
  | nil => cases h : sameName k name <;> simp [put, h]
  | cons e d ih =>
    obtain ⟨k', m'⟩ := e
    rw [List.map_cons, List.forall_mem_cons] at hd
    cases hsame : sameName k' k with
    | true =>
      have hcongr := sameName_congr hd.1 hk hname hsame
      cases h : sameName k name <;> simp [put, hsame, hcongr, h]
    | false =>
      cases hfirst : sameName k' name with
      | false => simp [put, hsame, hfirst, ih hd.2]
      | true =>
        have hother : sameName k name = false := by
          have hkey := (sameName_iff hd.1 hname).mp hfirst
          have hne := mt (sameName_iff hd.1 hk).mpr (by simp [hsame])
          rw [← Bool.not_eq_true, sameName_iff hk hname, ← hkey]
          exact fun he => hne he.symm
        simp [put, hsame, hfirst, hother]

theorem find?_putAll {pairs : List (Value × ModuleEntry)} (h : ∀ e ∈ pairs, IsName e.1)
    {name : Value} (hname : IsName name) :
    ((putAll [] pairs).find? (fun e => sameName e.1 name)).map Prod.snd =
      (pairs.reverse.find? (fun e => sameName e.1 name)).map Prod.snd := by
  induction pairs using List.reverseRecOn with
  | nil => rfl
  | append_singleton pairs e ih =>
    rw [List.forall_mem_append, List.forall_mem_singleton] at h
    rw [putAll_concat, find?_put hname h.2 (forall_names_putAll h.1), ih h.1, List.reverse_concat,
      List.find?_cons]
    cases sameName e.1 name <;> rfl

theorem isAtomic_of_reads {items : List Value} {pairs : List (Value × ModuleEntry)}
    (h : List.Forall₂ Reads items pairs) : ∀ e ∈ pairs, e.1.isAtomic = true := by
  induction h with
  | nil => exact fun _ he => absurd he List.not_mem_nil
  | cons hread _ ih =>
    obtain ⟨-, -, -, hatomic⟩ := hread
    exact List.forall_mem_cons.mpr ⟨hatomic, ih⟩

/-- A text without decimal numbers is loaded as a document that its own rendering is loaded as
again, whatever values stand in the fields of the text. -/
theorem load_render_of_load {text : String} {v : Value} {d : Document}
    (hparse : Json.parse text = .ok v) (hdecimals : v.decimals = [])
    (hload : load text = .ok d) :
    load d.render = .ok d ∧ (load d.render).map render = .ok d.render ∧
    ∃ items pairs, Document.items v = .ok items ∧ List.Forall₂ Reads items pairs ∧
      d.map Prod.fst =
        (pairs.map Prod.fst).eraseDupsBy (fun later earlier => sameName earlier later) ∧
      ∀ pair ∈ pairs, (d.find? (fun e => sameName e.1 pair.1)).map Prod.snd =
        (pairs.reverse.find? (fun e => sameName e.1 pair.1)).map Prod.snd := by
  have hv : v.IsJson False False := (Json.isJson_of_parse hparse).of_decimals_eq_nil hdecimals
  have hd := isJson_of_load hparse hv hload
  obtain ⟨w, items, pairs, hparse', hitems, hpairs, hput⟩ := exists_reads_of_load hload
  rw [hparse, Except.ok.injEq] at hparse'
  subst hparse'
  have hjson := isJson_of_reads hpairs (isJson_of_items hv hitems)
  have hatomic := isAtomic_of_reads hpairs
  have hnames : ∀ e ∈ pairs, IsName e.1 := fun e he => ⟨hatomic e he, (hjson e he).1⟩
  have hwell : d.WellNamed := hput ▸ wellNamed_putAll hatomic
  have hagain := (yields_load_render hd hwell).resolve_right And.left
  refine ⟨hagain, by rw [hagain]; rfl, items, pairs, hitems, hpairs, ?_, fun pair hpair => ?_⟩
  · rw [hput, map_fst_putAll]
  · rw [hput, find?_putAll hnames (hnames pair hpair)]

/-- A module under `true`, one under `B`, and under 1, which is the same name as `true`, one with
fields of other kinds than records have. -/
def oddValue : Value :=
  .list [
    .list [.bool true, .table [("name", .text "A")]],
    .list [.text "B", .table [("name", .text "B"), ("entityCount", .null)]],
    .list [.int 1, .table [
      ("name", .null), ("exports", .text "xy"), ("controllers", .table [("k", .int (-1))]),
      ("providers", .list [.table [
        ("name", .list []), ("type", .bool false), ("isInjectable", .null), ("provide", .null),
        ("inject", .text "z")]]),
      ("imports", .list [.table [
        ("name", .int 1), ("path", .null), ("dependencies", .table []),
        ("module", .table [("name", .null), ("providers", .text "")])]])]]]

def oddDocument : Document :=
  [(.bool true, {
      name := .null, filePath := .null, exports := [.text "x", .text "y"]
      controllers := [.text "k"], entityCount := .int 0
      providers := [{
        name := .list [], kind := .bool false, dependencies := [], isInjectable := .null
        provide := .null, useClass := .null, useValue := .null, useFactory := .null
        inject := .text "z" }]
      imports := [{
        name := .int 1, path := .null, isAsync := .bool false
        isForwardReference := .bool false, dependencies := []
        snapshot := some { name := .null, providers := [], controllers := [] } }] }),
    (.text "B", {
      name := .text "B", filePath := .null, imports := [], exports := [], providers := []
      controllers := [], entityCount := .null })]

theorem isJson_oddValue : oddValue.IsJson False False := by
  have hone : 1 < 10 ^ Json.digitLimit := Nat.one_lt_pow (by decide) (by decide)
  simp [oddValue, Value.isJson_list_iff, Value.isJson_table_iff, Value.IsJson.null,
    Value.IsJson.bool, Value.IsJson.int, Value.IsJson.text, hone]

set_option maxRecDepth 1000 in
theorem load_oddValue : load (Json.render oddValue) = .ok oddDocument := by
  have hread : ofValue oddValue = .ok oddDocument := rfl
  rw [load, Json.parse_render isJson_oddValue]
  exact hread

theorem load_render_oddDocument :
    oddValue.decimals = [] ∧ load (Json.render oddValue) = .ok oddDocument ∧
    load oddDocument.render = .ok oddDocument := by
  have hparse := Json.parse_render isJson_oddValue
  have hdecimals : oddValue.decimals = [] := by decide
  exact ⟨hdecimals, load_oddValue, (load_render_of_load hparse hdecimals load_oddValue).1⟩

end Document

end ModuleGraph
