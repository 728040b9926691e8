import Mathlib.Algebra.Group.Nat.Even
import Mathlib.Data.List.Induction
import ModuleGraph.Extraction
import ModuleGraph.Proofs.DotDocument
import ModuleGraph.Registration
import ModuleGraph.TypeScript.Statement

/-! Where the quoted names of a Graphviz document end for a reader of the format. Only quotes
are escaped, and a name keeps the backslashes that it has in the source, so a name ends where
it was meant to end exactly if an even number of backslashes stands before each of its quotes
and at its end. -/

namespace ModuleGraph.Dot

/-- The number of backslashes at the end of a text. -/
def backslashes (cs : List Char) : Nat :=
  (cs.reverse.takeWhile (· = '\\')).length

/-- Where a quoted string ends that begins here: at the first quote with an even number of
backslashes before it. -/
def closingQuote? (text : List Char) : Option Nat :=
  (List.range text.length).find? fun n => text[n]? = some '"' ∧ Even (backslashes (text.take n))

/-- An even number of backslashes stands before each quote and at the end. -/
def EvenlyEscaped (cs : List Char) : Prop :=
  (∀ pre post, cs = pre ++ '"' :: post → Even (backslashes pre)) ∧ Even (backslashes cs)

theorem backslashes_concat (cs : List Char) (c : Char) :
    backslashes (cs ++ [c]) = if c = '\\' then backslashes cs + 1 else 0 := by
  rw [backslashes, List.reverse_append]
  by_cases hc : c = '\\' <;> simp [hc, backslashes]

theorem escapedName_append (cs ds : List Char) :
    escapedName (cs ++ ds) = escapedName cs ++ escapedName ds :=
  List.flatMap_append

theorem backslashes_escapedName (cs : List Char) :
    backslashes (escapedName cs) = backslashes cs := by
  induction cs using List.reverseRecOn with
  | nil => rfl
  | append_singleton cs c ih =>
    rw [escapedName_append, backslashes_concat]
    by_cases hquote : c = '"'
    · have hpair : escapedName cs ++ escapedName [c] = (escapedName cs ++ ['\\']) ++ ['"'] := by
        simp [hquote, escapedName]
      rw [hpair, backslashes_concat, hquote]
      rfl
    · have hsame : escapedName [c] = [c] := by simp [hquote, escapedName]
      rw [hsame, backslashes_concat, ih]

/-- The quotes of an escaped name are those of the name, each behind one more backslash. -/
theorem escapedName_eq_append_quote {cs front back : List Char} :
    escapedName cs = front ++ '"' :: back ↔ ∃ pre post, cs = pre ++ '"' :: post ∧
      front = escapedName pre ++ ['\\'] ∧ back = escapedName post := by
  constructor
  · intro h
    induction cs generalizing front with
    | nil => simp [escapedName] at h
    | cons c cs ih =>
      by_cases hc : c = '"'
      · rw [hc] at h ⊢
        have hquote : '\\' :: '"' :: escapedName cs = front ++ '"' :: back := h
        rcases front with _ | ⟨x, _ | ⟨y, front⟩⟩
        · simp at hquote
        · obtain ⟨hx, hback⟩ : '\\' = x ∧ escapedName cs = back := by simpa using hquote
          exact ⟨[], cs, rfl, by rw [hx]; rfl, hback.symm⟩
        · obtain ⟨hx, hy, hrest⟩ :
              '\\' = x ∧ '"' = y ∧ escapedName cs = front ++ '"' :: back := by simpa using hquote
          obtain ⟨pre, post, hcs, hfront, hback⟩ := ih hrest
          exact ⟨'"' :: pre, post, by rw [hcs]; rfl, by rw [hfront, ← hx, ← hy]; rfl, hback⟩
      · rw [escapedName_cons_of_ne hc] at h
        rcases front with _ | ⟨x, front⟩
        · exact absurd (List.head_eq_of_cons_eq h) hc
        · obtain ⟨hx, hrest⟩ : c = x ∧ escapedName cs = front ++ '"' :: back := by simpa using h
          obtain ⟨pre, post, hcs, hfront, hback⟩ := ih hrest
          refine ⟨c :: pre, post, by rw [hcs]; rfl, ?_, hback⟩
          rw [hfront, ← hx, escapedName_cons_of_ne hc]
          rfl
  · rintro ⟨pre, post, rfl, rfl, rfl⟩
    rw [escapedName_append, List.append_assoc]
    rfl

theorem closingQuote?_eq_some_iff {cs rest : List Char} :
    closingQuote? (cs ++ '"' :: rest) = some cs.length ↔
      (∀ front back, cs = front ++ '"' :: back → ¬ Even (backslashes front)) ∧
        Even (backslashes cs) := by
  have hend : (cs ++ '"' :: rest)[cs.length]? = some '"' := by simp
  have hbefore : (cs ++ '"' :: rest).take cs.length = cs := List.take_left
  have hmem : cs.length ∈ List.range (cs ++ '"' :: rest).length := by simp
  rw [closingQuote?, List.find?_range_eq_some]
  simp only [hend, hbefore, hmem, true_and, decide_eq_true_eq, Bool.not_eq_true',
    decide_eq_false_iff_not, not_and]
  rw [and_comm]
  refine and_congr_left fun _ => ⟨fun h front back hcs => ?_, fun h n hn hquote => ?_⟩
  · have hfront := h front.length (by simp [hcs]) (by simp [hcs])
    simpa [hcs] using hfront
  · rw [List.getElem?_append_left hn] at hquote
    obtain ⟨hlt, hquote⟩ := List.getElem?_eq_some_iff.mp hquote
    rw [List.take_append_of_le_length (Nat.le_of_lt hlt)]
    refine h (cs.take n) (cs.drop (n + 1)) ?_
    rw [← hquote, List.getElem_cons_drop, List.take_append_drop]

/-- An escaped name is read up to its own closing quote exactly if it is evenly escaped. -/
theorem closingQuote?_escapedName (cs rest : List Char) :
    closingQuote? (escapedName cs ++ '"' :: rest) = some (escapedName cs).length ↔
      EvenlyEscaped cs := by
  have hodd : ∀ pre, ¬ Even (backslashes (escapedName pre ++ ['\\'])) ↔ Even (backslashes pre) := by
    intro pre
    rw [backslashes_concat, if_pos rfl, backslashes_escapedName, Nat.even_add_one, not_not]
  rw [closingQuote?_eq_some_iff, backslashes_escapedName, EvenlyEscaped]
  refine and_congr_left fun _ => ⟨fun h pre post hcs => ?_, fun h front back hcs => ?_⟩
  · exact (hodd pre).mp
      (h _ _ (escapedName_eq_append_quote.mpr ⟨pre, post, hcs, rfl, rfl⟩))
  · obtain ⟨pre, post, hcs, hfront, -⟩ := escapedName_eq_append_quote.mp hcs
    rw [hfront]
    exact (hodd pre).mpr (h pre post hcs)

/-- A document in pieces: names between quotes, and what stands around them. -/
inductive Piece where
  | quoted (name : String)
  | other (cs : List Char)
  deriving DecidableEq

def Piece.text : Piece → List Char
  | .quoted name => quotedName name
  | .other cs => cs

def Node.pieces (n : Node) : List Piece :=
  [.other "  ".toList, .quoted n.name, .other (" [label=\"".toList ++ n.labelText)]

def Edge.pieces (e : Edge) : List Piece :=
  [.other "  ".toList, .quoted e.source, .other " -> ".toList, .quoted e.target,
    .other ([' '] ++ (e.style.toList ++ [';', '\n']))]

def pieces (m : ModuleMap) : List Piece :=
  .other ((header.map (·.toList)).flatMap (· ++ ['\n'])) :: ((nodes m).flatMap Node.pieces ++
    .other ['\n'] :: ((edges m).flatMap Edge.pieces ++ [.other ['}']]))

/-- The names that a document has between quotes. -/
def quotedNames (m : ModuleMap) : List String :=
  (nodes m).map (·.name) ++ (edges m).flatMap (fun e => [e.source, e.target])

theorem toList_renderDot_eq_pieces (m : ModuleMap) :
    m.renderDot.toList = (pieces m).flatMap Piece.text := by
  have hnode : ∀ n : Node, n.pieces.flatMap Piece.text = n.text := by
    intro n
    simp [Node.pieces, Piece.text, Node.text]
  have hedge : ∀ e : Edge, e.pieces.flatMap Piece.text = e.text := by
    intro e
    simp [Edge.pieces, Piece.text, Edge.text_eq]
  rw [toList_renderDot, pieces]
  simp [Piece.text, List.flatMap_append, List.flatMap_assoc, hnode, hedge]

theorem quoted_mem_pieces {m : ModuleMap} {name : String} :
    .quoted name ∈ pieces m ↔ name ∈ quotedNames m := by
  have hnode : ∀ n : Node, .quoted name ∈ n.pieces ↔ name = n.name := by
    intro n
    simp [Node.pieces]
  have hedge : ∀ e : Edge, .quoted name ∈ e.pieces ↔ name = e.source ∨ name = e.target := by
    intro e
    simp [Edge.pieces]
  simp only [pieces, quotedNames, List.mem_cons, List.mem_append, List.mem_flatMap, hnode, hedge,
    reduceCtorEq]
  simp [eq_comm]

/-- What a document has behind the opening quote of a name. -/
theorem drop_renderDot {m : ModuleMap} {before after : List Piece} {name : String}
    (h : pieces m = before ++ .quoted name :: after) :
    m.renderDot.toList.drop ((before.flatMap Piece.text).length + 1) =
      escapedName name.toList ++ '"' :: after.flatMap Piece.text := by
  rw [toList_renderDot_eq_pieces, h, List.flatMap_append, List.flatMap_cons]
  simp [Piece.text, quotedName, List.drop_append]

/-- A reader of the format gets each name of a document up to its own closing quote exactly if
every name is evenly escaped. -/
theorem closingQuote?_renderDot_iff (m : ModuleMap) :
    m.renderDot.toList = (pieces m).flatMap Piece.text ∧
    ((∀ before name after, pieces m = before ++ .quoted name :: after →
      closingQuote? (m.renderDot.toList.drop ((before.flatMap Piece.text).length + 1)) =
        some (escapedName name.toList).length) ↔
      ∀ name ∈ quotedNames m, EvenlyEscaped name.toList) := by
  refine ⟨toList_renderDot_eq_pieces m, fun h name hname => ?_,
    fun h before name after hsplit => ?_⟩
  · obtain ⟨before, after, hsplit⟩ := List.append_of_mem (quoted_mem_pieces.mpr hname)
    have hread := h before name after hsplit
    rw [drop_renderDot hsplit] at hread
    exact (closingQuote?_escapedName _ _).mp hread
  · have hname : name ∈ quotedNames m := by
      apply quoted_mem_pieces.mp
      rw [hsplit]
      exact List.mem_append_right _ List.mem_cons_self
    rw [drop_renderDot hsplit]
    exact (closingQuote?_escapedName _ _).mpr (h name hname)

/-- A file whose module provides a token that is written with an escaped quote. -/
def escapedToken : String :=
  "@Module(\x7b providers: [\x7b provide: 'a\\\"b', useFactory: make, inject: [X] \x7d] \x7d)\n" ++
    "class A \x7b\x7d"

def escapedTokenModule : ModuleRecord where
  name := "A"
  filePath := some "a.module.ts"
  providers :=
    [{ name := "a\\\"b", kind := "factory", dependencies := ["X"], provide := some "a\\\"b",
       useFactory := some "make", inject := some ["X"] }]

def escapedTokens : ModuleMap :=
  ModuleMap.empty.register ⟨"a.module.ts", escapedTokenModule⟩

/-- The name of the provider has five characters between its quotes, and three of them are
read. -/
theorem closingQuote?_escapedToken :
    (readModule (TypeScript.parse escapedToken) "a.module.ts" {}).module =
      some escapedTokenModule ∧
    ∃ before after, pieces escapedTokens = before ++ .quoted "a\\\"b" :: after ∧
      closingQuote? (escapedTokens.renderDot.toList.drop ((before.flatMap Piece.text).length + 1)) =
        some 3 ∧
      (escapedName "a\\\"b".toList).length = 5 := by
  have hsplit : pieces escapedTokens = (pieces escapedTokens).take 6 ++
      .quoted "a\\\"b" :: (pieces escapedTokens).drop 7 := by
    decide +kernel
  refine ⟨by decide +kernel, _, _, hsplit, ?_, by decide⟩
  have hstart : ∀ front back, ['a', '\\', '\\'] ≠ front ++ '"' :: back := by
    intro front back h
    have hmem : '"' ∈ ['a', '\\', '\\'] := by simp [h]
    exact absurd hmem (by decide)
  have hname : escapedName "a\\\"b".toList = ['a', '\\', '\\'] ++ ['"', 'b'] := by decide
  rw [drop_renderDot hsplit, hname, List.append_assoc]
  exact closingQuote?_eq_some_iff.mpr ⟨fun front back h => absurd h (hstart front back), by decide⟩

end ModuleGraph.Dot
