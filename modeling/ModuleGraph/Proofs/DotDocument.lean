import ModuleGraph.Dot
import ModuleGraph.Proofs.JsonNumber

/-! A Graphviz document shows exactly the nodes and the edges of its graph. No name without a
backslash can be read as the end of a name, of a statement or of a section, whatever else it
holds, so two graphs with such names have one document only if they show the same. -/

namespace ModuleGraph.Dot

open Json (EndsNumber)

/-- What the node of a module shows. -/
structure Node where
  name : String
  controllers : Nat
  providers : Nat
  imports : Nat
  entities : Int
  deriving DecidableEq

/-- An edge from a module to one that it imports. -/
structure ImportEdge where
  source : String
  target : String
  isForward : Bool
  deriving DecidableEq

/-- An edge from a provider to what it needs. -/
structure ProviderEdge where
  source : String
  target : String
  deriving DecidableEq

def nodes (m : ModuleMap) : List Node :=
  m.entries.map fun e => ⟨e.1, e.2.controllers.length, e.2.providers.length,
    e.2.imports.length, e.2.entityCount⟩

def importEdges (m : ModuleMap) : List ImportEdge :=
  m.entries.flatMap fun e => e.2.imports.map fun i => ⟨e.1, i.name, i.isForwardReference⟩

def providerEdges (m : ModuleMap) : List ProviderEdge :=
  m.providers.flatMap fun p => p.dependencies.map fun d => ⟨p.name, d⟩

/-- No backslash stands in a name that the document shows. -/
structure PlainNames (m : ModuleMap) : Prop where
  modules : ∀ name ∈ m.names, '\\' ∉ name.toList
  imports : ∀ r ∈ m.records, ∀ i ∈ r.imports, '\\' ∉ i.name.toList
  providers : ∀ p ∈ m.providers, '\\' ∉ p.name.toList
  dependencies : ∀ p ∈ m.providers, ∀ d ∈ p.dependencies, '\\' ∉ d.toList

def Node.counts (n : Node) : List (String × Int) :=
  [("\\nControllers: ", n.controllers), ("\\nProviders: ", n.providers),
    ("\\nImports: ", n.imports), ("\\nEntities: ", n.entities)]

def countsText (counts : List (String × Int)) : List Char :=
  counts.flatMap fun c => c.1.toList ++ (toString c.2).toList

/-- What the label of a node holds, up to the end of the node. -/
def Node.labelText (n : Node) : List Char :=
  escapedLabel n.name.toList ++ (countsText n.counts ++ ['"', ']', ';', '\n'])

def Node.text (n : Node) : List Char :=
  "  ".toList ++ (quotedName n.name ++ (" [label=\"".toList ++ n.labelText))

/-- An edge of either kind: nothing separates the two in a document. -/
abbrev Edge : Type := ImportEdge ⊕ ProviderEdge

def Edge.style : Edge → String
  | .inl e => importStyle { name := e.target, isForwardReference := e.isForward }
  | .inr _ => providerStyle

def Edge.source : Edge → String := Sum.elim (·.source) (·.source)

def Edge.target : Edge → String := Sum.elim (·.target) (·.target)

def Edge.text (e : Edge) : List Char :=
  edgeLine e.source e.target e.style ++ ['\n']

def edges (m : ModuleMap) : List Edge :=
  (importEdges m).map .inl ++ (providerEdges m).map .inr

theorem Edge.text_eq (e : Edge) : e.text = "  ".toList ++ (quotedName e.source ++
    (" -> ".toList ++ (quotedName e.target ++ ([' '] ++ (e.style.toList ++ [';', '\n']))))) := by
  show ("  ".toList ++ quotedName e.source ++ " -> ".toList ++ quotedName e.target ++ [' '] ++
    e.style.toList ++ [';']) ++ ['\n'] = _
  simp only [List.append_assoc]
  rfl

theorem escapedLabel_append (cs ds : List Char) :
    escapedLabel (cs ++ ds) = escapedLabel cs ++ escapedLabel ds :=
  List.flatMap_append

/-- A caption begins a line of a label, and nothing in it is escaped. -/
def IsCaption (caption : String) : Prop :=
  caption.toList.head? = some '\\' ∧ escapedLabel caption.toList = caption.toList

theorem Node.isCaption (n : Node) : ∀ c ∈ n.counts, IsCaption c.1 := by
  have hcaptions : ∀ caption ∈ ["\\nControllers: ", "\\nProviders: ", "\\nImports: ",
      "\\nEntities: "], caption.toList.head? = some '\\' ∧
        escapedLabel caption.toList = caption.toList := by decide
  intro c hc
  exact hcaptions c.1 (List.mem_map_of_mem hc)

theorem escapedLabel_toString (n : Int) :
    escapedLabel (toString n).toList = (toString n).toList := by
  have hsame : ∀ c ∈ (toString n).toList, (if c = '"' then ['\\', '"'] else
      if c = '\n' then ['\\', 'n'] else [c]) = [c] := by
    intro c hc
    have hne : c ≠ '"' ∧ c ≠ '\n' := by
      constructor <;> rintro rfl <;> exact absurd (Json.mem_toString hc) (by decide)
    rw [if_neg hne.1, if_neg hne.2]
  rw [escapedLabel, List.flatMap_congr hsame]
  exact List.flatMap_singleton' _

theorem escapedLabel_countsText {counts : List (String × Int)}
    (h : ∀ c ∈ counts, IsCaption c.1) : escapedLabel (countsText counts) = countsText counts := by
  rw [escapedLabel, countsText, List.flatMap_assoc]
  apply List.flatMap_congr
  intro c hc
  rw [← escapedLabel, escapedLabel_append, (h c hc).2, escapedLabel_toString]

theorem nodeLine_eq (name : String) (m : ModuleRecord) :
    nodeLine name m ++ ['\n'] = Node.text ⟨name, m.controllers.length, m.providers.length,
      m.imports.length, m.entityCount⟩ := by
  generalize hn : Node.mk name m.controllers.length m.providers.length m.imports.length
    m.entityCount = n
  have hlabel : (label name m).toList = n.name.toList ++ countsText n.counts := by
    rw [← hn]
    show (name ++ "\\nControllers: " ++ toString (m.controllers.length : Int) ++
      "\\nProviders: " ++ toString (m.providers.length : Int) ++ ("\\nImports: " ++
      toString (m.imports.length : Int) ++ "\\nEntities: " ++ toString m.entityCount)).toList = _
    simp only [String.toList_append, List.append_assoc, countsText, Node.counts,
      List.flatMap_cons, List.flatMap_nil, List.append_nil]
  have hname : quotedName name = quotedName n.name := by rw [← hn]
  have hend : "\"];".toList ++ ['\n'] = ['"', ']', ';', '\n'] := by decide
  rw [nodeLine, hlabel, hname, escapedLabel_append, escapedLabel_countsText n.isCaption,
    List.append_assoc _ _ ['\n'], hend, Node.text, Node.labelText]
  simp only [List.append_assoc]

theorem intercalate_concat {α : Type} (sep last : List α) (xs : List (List α)) :
    sep.intercalate (xs ++ [last]) = xs.flatMap (· ++ sep) ++ last := by
  induction xs with
  | nil => simp [List.intercalate]
  | cons x xs ih =>
    cases xs with
    | nil => simp [List.intercalate]
    | cons y xs =>
      rw [List.cons_append, List.cons_append, List.intercalate_cons_cons, ← List.cons_append, ih]
      simp

theorem flatMap_text_edges (m : ModuleMap) : (edges m).flatMap Edge.text =
    (m.entries.flatMap (fun e => importLines e.1 e.2)).flatMap (· ++ ['\n']) ++
      (m.records.flatMap providerLines).flatMap (· ++ ['\n']) := by
  have himports : (importEdges m).flatMap (fun e => Edge.text (.inl e)) =
      (m.entries.flatMap (fun e => importLines e.1 e.2)).flatMap (· ++ ['\n']) := by
    simp only [importEdges, importLines, List.flatMap_assoc, List.flatMap_map]
    rfl
  have hproviders : (providerEdges m).flatMap (fun e => Edge.text (.inr e)) =
      (m.records.flatMap providerLines).flatMap (· ++ ['\n']) := by
    simp only [providerEdges, ModuleMap.providers, providerLines, List.flatMap_assoc,
      List.flatMap_map]
    rfl
  rw [edges, List.flatMap_append, List.flatMap_map, List.flatMap_map, himports, hproviders]

theorem toList_renderDot (m : ModuleMap) : m.renderDot.toList =
    (header.map (·.toList)).flatMap (· ++ ['\n']) ++
      ((nodes m).flatMap Node.text ++ '\n' :: ((edges m).flatMap Edge.text ++ ['}'])) := by
  have hnodes : (nodes m).flatMap Node.text =
      (m.entries.map (fun e => nodeLine e.1 e.2)).flatMap (· ++ ['\n']) := by
    simp only [nodes, List.flatMap_map, nodeLine_eq]
  rw [ModuleMap.renderDot, String.toList_ofList, lines, intercalate_concat, hnodes,
    flatMap_text_edges]
  simp [List.append_assoc]

/-- What is written for an element ends by itself: what is written behind it is no part of it. -/
def SelfDelimiting {α : Type} (P : α → Prop) (text : α → List Char) : Prop :=
  ∀ ⦃a b : α⦄ ⦃x y : List Char⦄, P a → P b → text a ++ x = text b ++ y → a = b ∧ x = y

/-- A sequence ends before a text that begins with another character than its elements. -/
theorem SelfDelimiting.flatMap_inj {α : Type} {P : α → Prop} {text : α → List Char}
    (htext : SelfDelimiting P text) {c : Char} (hhead : ∀ a, ∃ cs, text a = c :: cs)
    {as bs : List α} (has : ∀ a ∈ as, P a) (hbs : ∀ b ∈ bs, P b) {d d' : Char}
    (hd : d ≠ c) (hd' : d' ≠ c) {x y : List Char}
    (h : as.flatMap text ++ d :: x = bs.flatMap text ++ d' :: y) :
    as = bs ∧ d :: x = d' :: y := by
  induction as generalizing bs with
  | nil =>
    cases bs with
    | nil => exact ⟨rfl, h⟩
    | cons b bs =>
      obtain ⟨cs, hb⟩ := hhead b
      simp only [List.flatMap_nil, List.nil_append, List.flatMap_cons, hb, List.cons_append,
        List.cons.injEq] at h
      exact absurd h.1 hd
  | cons a as ih =>
    cases bs with
    | nil =>
      obtain ⟨cs, ha⟩ := hhead a
      simp only [List.flatMap_nil, List.nil_append, List.flatMap_cons, ha, List.cons_append,
        List.cons.injEq] at h
      exact absurd h.1.symm hd'
    | cons b bs =>
      rw [List.flatMap_cons, List.flatMap_cons, List.append_assoc, List.append_assoc] at h
      obtain ⟨hab, hrest⟩ := htext (has a List.mem_cons_self) (hbs b List.mem_cons_self) h
      obtain ⟨hall, hend⟩ := ih (fun e he => has e (List.mem_cons_of_mem _ he))
        (fun e he => hbs e (List.mem_cons_of_mem _ he)) hrest
      exact ⟨by rw [hab, hall], hend⟩

/-- Reads a name up to its closing quote, and gives what follows. -/
def readName : List Char → Option (List Char × List Char)
  | [] => none
  | '"' :: rest => some ([], rest)
  | '\\' :: '"' :: rest => (readName rest).map fun (name, rest) => ('"' :: name, rest)
  | c :: rest => (readName rest).map fun (name, rest) => (c :: name, rest)

theorem escapedName_cons_of_ne {c : Char} (hc : c ≠ '"') (cs : List Char) :
    escapedName (c :: cs) = c :: escapedName cs := by
  simp [escapedName, hc]

theorem readName_escapedName {cs : List Char} (hcs : '\\' ∉ cs) (rest : List Char) :
    readName (escapedName cs ++ '"' :: rest) = some (cs, rest) := by
  induction cs with
  | nil => rfl
  | cons c cs ih =>
    have hc : c ≠ '\\' := fun he => hcs (he ▸ List.mem_cons_self)
    have hrest := ih fun hmem => hcs (List.mem_cons_of_mem _ hmem)
    by_cases hquote : c = '"'
    · subst hquote
      show readName ('\\' :: '"' :: (escapedName cs ++ '"' :: rest)) = _
      simp [readName, hrest]
    · rw [escapedName_cons_of_ne hquote]
      simp [readName, hc, hrest]

theorem quotedName_append_inj {s t : String} (hs : '\\' ∉ s.toList) (ht : '\\' ∉ t.toList)
    {x y : List Char} (h : quotedName s ++ x = quotedName t ++ y) : s = t ∧ x = y := by
  simp only [quotedName, List.cons_append, List.append_assoc, List.nil_append] at h
  have hread := congrArg readName (List.tail_eq_of_cons_eq h)
  rw [readName_escapedName hs, readName_escapedName ht] at hread
  simpa [String.toList_inj] using hread

theorem endsNumber_countsText {counts : List (String × Int)} {rest : List Char}
    (h : ∀ c ∈ counts, IsCaption c.1) (hrest : EndsNumber rest) :
    EndsNumber (countsText counts ++ rest) := by
  cases counts with
  | nil => exact hrest
  | cons c counts =>
    obtain ⟨cs, hcs⟩ := List.head?_eq_some_iff.mp (h c List.mem_cons_self).1
    rw [countsText, List.flatMap_cons, hcs]
    exact ⟨rfl, by decide, by decide, by decide⟩

theorem countsText_append_inj {counts counts' : List (String × Int)} {x y : List Char}
    (hcounts : ∀ c ∈ counts, IsCaption c.1) (hcounts' : ∀ c ∈ counts', IsCaption c.1)
    (hcaptions : counts.map Prod.fst = counts'.map Prod.fst)
    (hx : EndsNumber x) (hy : EndsNumber y)
    (h : countsText counts ++ x = countsText counts' ++ y) : counts = counts' ∧ x = y := by
  induction counts generalizing counts' with
  | nil =>
    cases counts' with
    | nil => exact ⟨rfl, h⟩
    | cons => cases hcaptions
  | cons c counts ih =>
    cases counts' with
    | nil => cases hcaptions
    | cons c' counts' =>
      obtain ⟨caption, n⟩ := c
      obtain ⟨caption', n'⟩ := c'
      obtain ⟨hcaption, hlaterCaptions⟩ := List.cons.inj hcaptions
      obtain rfl : caption = caption' := hcaption
      obtain ⟨-, hrest⟩ := List.forall_mem_cons.mp hcounts
      obtain ⟨-, hrest'⟩ := List.forall_mem_cons.mp hcounts'
      rw [countsText, countsText, List.flatMap_cons, List.flatMap_cons] at h
      simp only [List.append_assoc] at h
      obtain ⟨hn, hlater⟩ := Json.toString_append_inj (endsNumber_countsText hrest hx)
        (endsNumber_countsText hrest' hy) (List.append_cancel_left h)
      obtain ⟨hsame, hend⟩ := ih hrest hrest' hlaterCaptions hlater
      exact ⟨by rw [hn, hsame], hend⟩

theorem selfDelimiting_node : SelfDelimiting (fun n : Node => '\\' ∉ n.name.toList) Node.text := by
  intro a b x y ha hb h
  have hquote : ∀ rest, EndsNumber (['"', ']', ';', '\n'] ++ rest) :=
    fun rest => ⟨rfl, by decide, by decide, by decide⟩
  simp only [Node.text, Node.labelText, List.append_assoc] at h
  obtain ⟨hname, h⟩ := quotedName_append_inj ha hb (List.append_cancel_left h)
  rw [hname] at h
  have hlabel := List.append_cancel_left (List.append_cancel_left h)
  obtain ⟨hcounts, hend⟩ := countsText_append_inj a.isCaption b.isCaption rfl (hquote x)
    (hquote y) hlabel
  obtain ⟨name, controllers, providers, imports, entities⟩ := a
  obtain ⟨name', controllers', providers', imports', entities'⟩ := b
  simp only [Node.counts, List.cons.injEq, Prod.mk.injEq, Int.ofNat_inj, true_and, and_true]
    at hcounts
  obtain ⟨hc, hp, hi, he⟩ := hcounts
  rw [show name = name' from hname, hc, hp, hi, he]
  exact ⟨rfl, List.append_cancel_left hend⟩

structure Edge.Plain (e : Edge) : Prop where
  source : '\\' ∉ e.source.toList
  target : '\\' ∉ e.target.toList

def styles : List String :=
  [importStyle { name := "", isForwardReference := true }, importStyle { name := "" },
    providerStyle]

theorem style_mem (e : Edge) : e.style ∈ styles := by
  rcases e with ⟨s, t, isForward⟩ | ⟨s, t⟩
  · cases isForward <;> simp [Edge.style, importStyle, styles]
  · simp [Edge.style, styles]

-- Two kinds of edges differ within the seventeen characters that every kind has.
theorem style_append_inj {e f : Edge} {x y : List Char}
    (h : e.style.toList ++ x = f.style.toList ++ y) : e.style = f.style ∧ x = y := by
  have hlong : ∀ s ∈ styles, 17 ≤ s.toList.length := by decide
  have hdiffer : ∀ s ∈ styles, ∀ t ∈ styles, s.toList.take 17 = t.toList.take 17 → s = t := by
    decide
  have hstart := congrArg (List.take 17) h
  rw [List.take_append_of_le_length (hlong _ (style_mem e)),
    List.take_append_of_le_length (hlong _ (style_mem f))] at hstart
  have hstyle := hdiffer _ (style_mem e) _ (style_mem f) hstart
  rw [hstyle] at h
  exact ⟨hstyle, List.append_cancel_left h⟩

theorem Edge.eq_of_style_eq {e f : Edge} (hs : e.source = f.source) (ht : e.target = f.target)
    (h : e.style = f.style) : e = f := by
  rcases e with ⟨s, t, isForward⟩ | ⟨s, t⟩ <;> rcases f with ⟨s', t', isForward'⟩ | ⟨s', t'⟩
  · cases isForward <;> cases isForward' <;>
      simp_all [Edge.style, Edge.source, Edge.target, importStyle]
  · cases isForward <;> simp [Edge.style, importStyle, providerStyle] at h
  · cases isForward' <;> simp [Edge.style, importStyle, providerStyle] at h
  · simp_all [Edge.source, Edge.target]

theorem selfDelimiting_edge : SelfDelimiting Edge.Plain Edge.text := by
  intro e f x y he hf h
  simp only [Edge.text_eq, List.append_assoc] at h
  obtain ⟨hsource, h⟩ := quotedName_append_inj he.source hf.source (List.append_cancel_left h)
  obtain ⟨htarget, h⟩ := quotedName_append_inj he.target hf.target (List.append_cancel_left h)
  obtain ⟨hstyle, h⟩ := style_append_inj (List.append_cancel_left h)
  exact ⟨Edge.eq_of_style_eq hsource htarget hstyle, List.append_cancel_left h⟩

theorem PlainNames.nodes {m : ModuleMap} (h : PlainNames m) :
    ∀ n ∈ nodes m, '\\' ∉ n.name.toList := by
  intro n hn
  obtain ⟨e, he, rfl⟩ := List.mem_map.mp hn
  exact h.modules e.1 (List.mem_map_of_mem he)

theorem PlainNames.edges {m : ModuleMap} (h : PlainNames m) : ∀ e ∈ edges m, e.Plain := by
  intro e he
  rcases List.mem_append.mp he with he | he
  · obtain ⟨edge, hedge, rfl⟩ := List.mem_map.mp he
    obtain ⟨entry, hentry, hedge⟩ := List.mem_flatMap.mp hedge
    obtain ⟨i, hi, rfl⟩ := List.mem_map.mp hedge
    exact ⟨h.modules _ (List.mem_map_of_mem hentry), h.imports _ (List.mem_map_of_mem hentry) i hi⟩
  · obtain ⟨edge, hedge, rfl⟩ := List.mem_map.mp he
    obtain ⟨p, hp, hedge⟩ := List.mem_flatMap.mp hedge
    obtain ⟨d, hd, rfl⟩ := List.mem_map.mp hedge
    exact ⟨h.providers p hp, h.dependencies p hp d hd⟩

theorem edges_inj {m m' : ModuleMap} (h : edges m = edges m') :
    importEdges m = importEdges m' ∧ providerEdges m = providerEdges m' := by
  have himports : ∀ m, (edges m).filterMap Sum.getLeft? = importEdges m := by
    intro m
    simp [edges, List.filterMap_append, List.filterMap_map, Function.comp_def]
  have hproviders : ∀ m, (edges m).filterMap Sum.getRight? = providerEdges m := by
    intro m
    simp [edges, List.filterMap_append, List.filterMap_map, Function.comp_def]
  rw [← himports, ← himports, ← hproviders, ← hproviders, h]
  exact ⟨rfl, rfl⟩

/-- Two graphs with plain names have one document exactly if they have the same nodes and the
same edges, in the same order. -/
theorem renderDot_eq_iff {m m' : ModuleMap} (hm : PlainNames m) (hm' : PlainNames m') :
    m.renderDot = m'.renderDot ↔ nodes m = nodes m' ∧ importEdges m = importEdges m' ∧
      providerEdges m = providerEdges m' := by
  rw [← String.toList_inj, toList_renderDot, toList_renderDot]
  constructor
  · intro h
    have hnode : ∀ n : Node, ∃ cs, n.text = ' ' :: cs := fun n => ⟨_, rfl⟩
    have hedge : ∀ e : Edge, ∃ cs, e.text = ' ' :: cs := fun e => ⟨_, rfl⟩
    have hbody := List.append_cancel_left h
    -- The nodes end at the empty line, and the edges at the bracket.
    obtain ⟨hnodes, hrest⟩ := selfDelimiting_node.flatMap_inj hnode hm.nodes hm'.nodes
      (by decide) (by decide) hbody
    obtain ⟨hedges, -⟩ := selfDelimiting_edge.flatMap_inj hedge hm.edges hm'.edges
      (by decide) (by decide) (List.tail_eq_of_cons_eq hrest)
    exact ⟨hnodes, edges_inj hedges⟩
  · rintro ⟨hnodes, himports, hproviders⟩
    rw [edges, edges, hnodes, himports, hproviders]

/-- One module whose name imitates the end of its node, an edge and another node. -/
def imitating : ModuleMap :=
  .ofList [("A\"];\n\n  \"A\" -> \"B\" [label=\"imports\"];\n  \"B", { name := "A" })]

/-- Two modules, one of which imports the other. -/
def imitated : ModuleMap :=
  .ofList [("A", { name := "A", imports := [{ name := "B" }] }), ("B", { name := "B" })]

theorem renderDot_imitating : PlainNames imitating ∧ PlainNames imitated ∧
    imitating.renderDot ≠ imitated.renderDot := by
  have himitating : PlainNames imitating := ⟨by decide, by decide, by decide, by decide⟩
  have himitated : PlainNames imitated := ⟨by decide, by decide, by decide, by decide⟩
  refine ⟨himitating, himitated, fun h => ?_⟩
  have hnodes := ((renderDot_eq_iff himitating himitated).mp h).1
  exact absurd hnodes (by decide)

end ModuleGraph.Dot
