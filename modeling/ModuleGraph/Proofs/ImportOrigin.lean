import ModuleGraph.Proofs.EditedList
import ModuleGraph.Symbols

/-! Where an imported name comes from. The first import statement that binds the name decides, and
the specifier of this statement is recorded, below the root of the framework by its last segment
only. Statements that do not bind the name have no say in it. -/

namespace ModuleGraph

namespace Node

/-- A part of an import clause introduces a local name: the default name, that of a namespace, or
the one that an import specifier goes by. The original name of a renamed import is no local name. -/
inductive Introduces (part : Node) (name : String) : Prop
  | default : part.kind = .identifier → part.text = name → Introduces part name
  | whole {ident : Node} : part.kind = .namespaceImport → ident ∈ part.namedChildren →
      ident.kind = .identifier → ident.text = name → Introduces part name
  | renamed {specifier given : Node} : part.kind = .namedImports →
      specifier ∈ part.namedChildren → specifier.kind = .importSpecifier →
      specifier.child? .asName = some given → given.text = name → Introduces part name
  | direct {specifier original : Node} : part.kind = .namedImports →
      specifier ∈ part.namedChildren → specifier.kind = .importSpecifier →
      specifier.child? .asName = none → specifier.child? .name = some original →
      original.text = name → Introduces part name

/-- An import statement whose first clause introduces a name. -/
def Binds (stmt : Node) (name : String) : Prop :=
  stmt.kind = .importStatement ∧
    ∃ clause, First (fun c => c.kind = .importClause) stmt.namedChildren clause ∧
      ∃ part ∈ clause.namedChildren, part.Introduces name

/-- A string literal encloses a text, with one character for a quote on either side. A literal that
is too short for two quotes encloses nothing. -/
inductive Encloses (literal : Node) : String → Prop
  | quoted {opening closing : Char} {text : String} :
      literal.text.toList = opening :: text.toList ++ [closing] → Encloses literal text
  | short : literal.text.toList.length < 2 → Encloses literal ""

end Node

/-- The path that a specifier is recorded by: what follows its last slash if it lies below the root
of the framework, and all of it otherwise. -/
inductive RecordedAs : String → String → Prop
  | whole {specifier : String} : ¬ frameworkRoot.toList <+: specifier.toList →
      RecordedAs specifier specifier
  | segment {path last : String} : frameworkRoot.toList <+: (path ++ "/" ++ last).toList →
      '/' ∉ last.toList → RecordedAs (path ++ "/" ++ last) last

theorem lastSegment_append {path last : String} (h : '/' ∉ last.toList) :
    lastSegment (path ++ "/" ++ last) = last := by
  have hlast : ∀ c ∈ last.toList.reverse, decide (c ≠ '/') = true := fun c hc => by
    have hc := List.mem_reverse.mp hc
    exact decide_eq_true fun he => h (he ▸ hc)
  have hreverse : (path ++ "/" ++ last).toList.reverse =
      last.toList.reverse ++ '/' :: path.toList.reverse := by
    simp
  rw [lastSegment, hreverse, List.takeWhile_append_of_pos hlast,
    List.takeWhile_cons_of_neg (by simp), List.append_nil, List.reverse_reverse,
    String.ofList_toList]

/-- A text with a slash can be cut at its last slash. -/
theorem exists_eq_append_slash {text : String} (h : '/' ∈ text.toList) :
    ∃ path last, text = path ++ "/" ++ last ∧ '/' ∉ last.toList := by
  obtain ⟨behind, before, hsplit, hbehind⟩ :=
    List.eq_append_cons_of_mem (List.mem_reverse.mpr h)
  refine ⟨String.ofList before.reverse, String.ofList behind.reverse, ?_, by simpa using hbehind⟩
  have htext : text.toList = before.reverse ++ '/' :: behind.reverse := by
    simpa using congrArg List.reverse hsplit
  apply String.toList_injective
  simp [htext]

theorem recordedAs_recordedSpecifier (specifier : String) :
    RecordedAs specifier (recordedSpecifier specifier) := by
  rw [recordedSpecifier]
  split
  · rename_i hroot
    have hroot := List.isPrefixOf_iff_prefix.mp hroot
    have hslash : '/' ∈ specifier.toList := hroot.subset (by decide)
    obtain ⟨path, last, rfl, hlast⟩ := exists_eq_append_slash hslash
    rw [lastSegment_append hlast]
    exact .segment hroot hlast
  · rename_i hroot
    exact .whole fun hprefix => hroot (List.isPrefixOf_iff_prefix.mpr hprefix)

theorem RecordedAs.recordedSpecifier_eq {specifier path : String}
    (h : RecordedAs specifier path) : recordedSpecifier specifier = path := by
  cases h with
  | whole hroot =>
    exact if_neg fun hprefix => hroot (List.isPrefixOf_iff_prefix.mp hprefix)
  | segment hroot hlast =>
    rw [recordedSpecifier, if_pos (List.isPrefixOf_iff_prefix.mpr hroot), lastSegment_append hlast]

namespace Node

section Literal

variable {literal : Node} {text : String}

theorem encloses_unquoted (literal : Node) : literal.Encloses literal.unquoted := by
  rw [unquoted]
  match hchars : literal.text.toList with
  | [] => exact .short (by simp [hchars])
  | [c] => exact .short (by simp [hchars])
  | opening :: c :: rest =>
    -- The last character is the closing quote.
    have hne : c :: rest ≠ [] := List.cons_ne_nil c rest
    refine @Encloses.quoted literal opening ((c :: rest).getLast hne) _ ?_
    rw [hchars, String.toList_ofList, List.drop_one, List.tail_cons, List.cons_append,
      List.dropLast_append_getLast]

theorem Encloses.unquoted_eq (h : literal.Encloses text) : literal.unquoted = text := by
  cases h with
  | quoted hchars => simp [unquoted, hchars]
  | short hshort =>
    rw [unquoted]
    match hchars : literal.text.toList with
    | [] => rfl
    | [c] => rfl
    | c :: c' :: rest =>
      rw [hchars, List.length_cons, List.length_cons] at hshort
      omega

end Literal

section Binding

variable {root part stmt : Node} {name : String}

theorem localName?_eq_some_iff {specifier : Node} : specifier.localName? = some name ↔
    (∃ given, specifier.child? .asName = some given ∧ given.text = name) ∨
    (specifier.child? .asName = none ∧
      ∃ original, specifier.child? .name = some original ∧ original.text = name) := by
  unfold localName?
  cases specifier.child? .asName <;> simp

theorem mem_boundNames_iff : name ∈ part.boundNames ↔ part.Introduces name := by
  unfold boundNames
  constructor
  · intro h
    split at h
    · rename_i hkind
      exact .default hkind (List.mem_singleton.mp h).symm
    · rename_i hkind
      obtain ⟨ident, hident, htext⟩ := List.mem_map.mp h
      obtain ⟨hmem, hident⟩ := List.mem_filter.mp hident
      exact .whole hkind hmem (of_decide_eq_true hident) htext
    · rename_i hkind
      obtain ⟨specifier, hspecifier, hlocal⟩ := List.mem_filterMap.mp h
      obtain ⟨hmem, hspecifier⟩ := List.mem_filter.mp hspecifier
      rcases localName?_eq_some_iff.mp hlocal with ⟨given, hgiven, htext⟩ |
        ⟨hnone, original, horiginal, htext⟩
      · exact .renamed hkind hmem (of_decide_eq_true hspecifier) hgiven htext
      · exact .direct hkind hmem (of_decide_eq_true hspecifier) hnone horiginal htext
    · cases h
  · intro h
    cases h with
    | default hkind htext => simp [hkind, htext]
    | whole hkind hmem hident htext =>
      simp only [hkind, List.mem_map, List.mem_filter, decide_eq_true_eq]
      exact ⟨_, ⟨hmem, hident⟩, htext⟩
    | renamed hkind hmem hspecifier hgiven htext =>
      simp only [hkind, List.mem_filterMap, List.mem_filter, decide_eq_true_eq]
      exact ⟨_, ⟨hmem, hspecifier⟩, localName?_eq_some_iff.mpr (.inl ⟨_, hgiven, htext⟩)⟩
    | direct hkind hmem hspecifier hnone horiginal htext =>
      simp only [hkind, List.mem_filterMap, List.mem_filter, decide_eq_true_eq]
      exact ⟨_, ⟨hmem, hspecifier⟩,
        localName?_eq_some_iff.mpr (.inr ⟨hnone, _, horiginal, htext⟩)⟩

theorem importClause?_eq_some_iff {clause : Node} : stmt.importClause? = some clause ↔
    First (fun c => c.kind = .importClause) stmt.namedChildren clause :=
  find?_eq_some_iff_first fun _ => decide_eq_true_iff

theorem imports_iff : stmt.imports name = true ↔ stmt.Binds name := by
  rw [imports, Bool.and_eq_true, decide_eq_true_iff, Binds]
  refine and_congr_right fun _ => ?_
  constructor
  · intro h
    split at h
    · rename_i clause hclause
      obtain ⟨part, hpart, hname⟩ := List.mem_flatMap.mp (List.contains_iff_mem.mp h)
      exact ⟨clause, importClause?_eq_some_iff.mp hclause, part, hpart, mem_boundNames_iff.mp hname⟩
    · cases h
  · rintro ⟨clause, hclause, part, hpart, hname⟩
    rw [importClause?_eq_some_iff.mpr hclause]
    exact List.contains_iff_mem.mpr
      (List.mem_flatMap.mpr ⟨part, hpart, mem_boundNames_iff.mpr hname⟩)

instance (stmt : Node) (name : String) : Decidable (stmt.Binds name) :=
  decidable_of_iff _ imports_iff

theorem importPath?_of_first (h : First (·.Binds name) root.namedChildren stmt) :
    root.importPath? name = stmt.specifier? := by
  rw [importPath?, (find?_eq_some_iff_first fun _ => imports_iff).mpr h, Option.bind_some]

/-- A name that no import statement binds comes from nowhere. Otherwise the first statement that
binds it decides: its specifier is recorded, if this is a string. Statements that do not bind the
name can be inserted and deleted anywhere. -/
theorem importPath?_origin (root : Node) (name : String) :
    ((∀ stmt ∈ root.namedChildren, ¬ stmt.Binds name) → root.importPath? name = none) ∧
    (∀ stmt, First (·.Binds name) root.namedChildren stmt →
      (∀ source, stmt.child? .source = some source → source.kind = .string →
        (root.importPath? name).isSome = true ∧
        ∀ path, root.importPath? name = some path ↔
          ∃ specifier, source.Encloses specifier ∧ RecordedAs specifier path) ∧
      ((∀ source, stmt.child? .source = some source → source.kind ≠ .string) →
        root.importPath? name = none)) ∧
    ∀ root' : Node, EqualBut (fun stmt => ¬ stmt.Binds name) root.namedChildren root'.namedChildren →
      root'.importPath? name = root.importPath? name := by
  refine ⟨fun hnone => ?_, fun stmt hstmt => ?_, fun root' h => ?_⟩
  · rw [importPath?, (find?_eq_none_iff_forall fun _ => imports_iff).mpr hnone, Option.bind_none]
  · rw [importPath?_of_first hstmt, specifier?]
    refine ⟨fun source hsource hstring => ?_, fun hstring => ?_⟩
    · rw [hsource]
      dsimp only
      rw [if_pos hstring]
      refine ⟨rfl, fun path => ?_⟩
      rw [Option.some.injEq]
      constructor
      · rintro rfl
        exact ⟨_, encloses_unquoted source, recordedAs_recordedSpecifier _⟩
      · rintro ⟨specifier, hspecifier, hpath⟩
        rw [hspecifier.unquoted_eq, hpath.recordedSpecifier_eq]
    · cases hsource : stmt.child? .source with
      | none => rfl
      | some source => exact if_neg (hstring source hsource)
  · rw [importPath?, importPath?, h.find? fun stmt hstmt => mt imports_iff.mp hstmt]

end Binding

def specifierOf (original : String) (given : Option String) : Node :=
  ⟨.importSpecifier, none, true, original,
    ⟨.identifier, some .name, true, original, []⟩ ::
      (given.map fun name => ⟨.identifier, some .asName, true, name, []⟩).toList⟩

def importOf (specifier : Node) (source : String) : Node :=
  ⟨.importStatement, none, true, "import",
    [⟨.importClause, none, true, "clause", [⟨.namedImports, none, true, "names", [specifier]⟩]⟩,
      ⟨.string, some .source, true, source, []⟩]⟩

def sideImport : Node :=
  ⟨.importStatement, none, true, "import './side'",
    [⟨.string, some .source, true, "'./side'", []⟩]⟩

def renamedImport : Node := importOf (specifierOf "Injectable" (some "I")) "\"@nestjs/common/core\""

def laterImport : Node := importOf (specifierOf "I" none) "'./later'"

def importing (stmts : List Node) : Node :=
  ⟨.other "program", none, true, "program", stmts ++ [renamedImport, laterImport]⟩

theorem importPath?_origin_importing :
    (importing [sideImport]).importPath? "I" = some "core" ∧
    (importing [sideImport]).importPath? "Injectable" = none := by
  obtain ⟨hnone, -, -⟩ := importPath?_origin (importing [sideImport]) "Injectable"
  obtain ⟨-, hfirst, hedit⟩ := importPath?_origin (importing []) "I"
  have hside : ¬ sideImport.Binds "I" := by decide
  have hdecides : First (·.Binds "I") (importing []).namedChildren renamedImport :=
    ⟨[], [laterImport], rfl, by decide, by simp⟩
  have hencloses : (⟨.string, some .source, true, "\"@nestjs/common/core\"", []⟩ : Node).Encloses
      "@nestjs/common/core" :=
    @Encloses.quoted _ '"' '"' _ (by decide)
  have hrecorded : RecordedAs ("@nestjs/common" ++ "/" ++ "core") "core" :=
    .segment (by decide) (by decide)
  refine ⟨?_, hnone (by decide)⟩
  rw [hedit (importing [sideImport]) (.insert hside (.refl _))]
  exact (((hfirst renamedImport hdecides).1 _ rfl rfl).2 "core").mpr ⟨_, hencloses, hrecorded⟩

end Node

end ModuleGraph
