import ModuleGraph.Proofs.AlikeReadings

/-! Comments do not matter. If some comments that play no role in their parents are left out of a
syntax tree, at any depth, every reader reads the same as before. -/

namespace ModuleGraph

open Node

namespace Node

/-- The second tree is the first with some asides left out, wherever they stand. -/
inductive Strips : Node → Node → Prop
  | node {n n' : Node} : SameLabels n n' → Trimmed Strips n.children n'.children → Strips n n'

variable {n n' root root' : Node}

theorem Strips.alike (h : n.Strips n') : Alike Strips n n' := by
  cases h with
  | node hlabels hchildren => exact ⟨hlabels, hchildren⟩

instance : KeepsLabels Strips := ⟨fun h => h.alike.labels⟩

theorem Strips.alike_children (h : n.Strips n') : Alike (Alike Strips) n n' :=
  h.alike.mono fun _ _ => Strips.alike

theorem Strips.alike_grandchildren (h : n.Strips n') : Alike (Alike (Alike Strips)) n n' :=
  h.alike.mono fun _ _ => Strips.alike_children

theorem depth_le_depths {c : Node} {cs : List Node} (h : c ∈ cs) :
    c.depth ≤ depth.depths cs := by
  induction cs with
  | nil => cases h
  | cons first rest ih =>
    rw [depth.depths]
    rcases List.mem_cons.mp h with rfl | h
    · exact Nat.le_max_left _ _
    · exact Nat.le_trans (ih h) (Nat.le_max_right _ _)

theorem depth_lt {c : Node} (h : c ∈ n.children) : c.depth < n.depth := by
  obtain ⟨_, _, _, _, children⟩ := n
  have hle : c.depth ≤ depth.depths children := depth_le_depths h
  rw [depth]
  omega

/-- The node that a generic type is named by. -/
def head? (type : Node) : Option Node := (type.child? .name).or type.elements.head?

theorem mem_children_of_head? {c : Node} (h : n.head? = some c) : c ∈ n.children := by
  rw [head?, Option.or_eq_some_iff] at h
  rcases h with h | ⟨-, h⟩
  · exact List.mem_of_find?_eq_some h
  · have hmem := List.mem_of_head? h
    exact List.mem_of_mem_filter (List.mem_of_mem_filter hmem)

theorem descend_succ (limit : Nat) (type : Node) :
    typeName?.descend (limit + 1) type =
      match type.kind with
      | .typeIdentifier | .nestedTypeIdentifier => some type.text
      | .genericType => type.head?.bind (typeName?.descend limit)
      | _ => none := rfl

/-- A limit that is no less than the depth of a type is no limit. -/
theorem descend_of_depth_le {limit limit' : Nat} (h : n.depth ≤ limit) (h' : n.depth ≤ limit') :
    typeName?.descend limit n = typeName?.descend limit' n := by
  induction limit generalizing n limit' with
  | zero =>
    obtain ⟨_, _, _, _, children⟩ := n
    rw [depth] at h
    omega
  | succ limit ih =>
    cases limit' with
    | zero =>
      obtain ⟨_, _, _, _, children⟩ := n
      rw [depth] at h'
      omega
    | succ limit' =>
      rw [descend_succ, descend_succ]
      cases hhead : n.head? with
      | none => rfl
      | some c =>
        have hdepth := depth_lt (mem_children_of_head? hhead)
        have hsame : typeName?.descend limit c = typeName?.descend limit' c :=
          ih (by omega) (by omega)
        simp only [Option.bind_some, hsame]

theorem Strips.head? (h : n.Strips n') : Option.Rel Strips n.head? n'.head? := by
  unfold Node.head?
  rcases rel_cases (h.alike.child? .name) with ⟨hc, hc'⟩ | ⟨c, c', hc, hc', hcc⟩
  · rw [hc, hc', Option.none_or, Option.none_or]
    exact head?_rel h.alike.elements
  · rw [hc, hc', Option.some_or, Option.some_or]
    exact .some hcc

theorem Strips.descend (h : n.Strips n') (limit : Nat) :
    typeName?.descend limit n' = typeName?.descend limit n := by
  induction limit generalizing n n' with
  | zero => rfl
  | succ limit ih =>
    rw [descend_succ, descend_succ, h.alike.labels.kind, h.alike.labels.text,
      bind_eq_of_rel h.head? fun _ _ hc => ih hc]

theorem Strips.typeName? (h : n.Strips n') : n'.typeName? = n.typeName? := by
  let limit := max n.depth n'.depth
  calc n'.typeName?
    _ = typeName?.descend limit n' := descend_of_depth_le (Nat.le_refl _) (Nat.le_max_right _ _)
    _ = typeName?.descend limit n := h.descend limit
    _ = n.typeName? := descend_of_depth_le (Nat.le_max_left _ _) (Nat.le_refl _)

theorem Strips.parameterType? (h : n.Strips n') : n'.parameterType? = n.parameterType? := by
  unfold Node.parameterType?
  rw [h.alike.labels.kind]
  split
  · have htype := rel_bind (h.alike.child? .type) fun _ _ hc => head?_rel hc.alike.elements
    rcases rel_cases htype with ⟨ht, ht'⟩ | ⟨t, t', ht, ht', htt⟩
    · rw [ht, ht']
    · rw [ht, ht']
      dsimp only
      rw [htt.typeName?]
  · rfl

theorem Strips.localName? (h : n.Strips n') : n'.localName? = n.localName? := by
  unfold Node.localName?
  rcases rel_cases (h.alike.child? .asName) with ⟨ha, ha'⟩ | ⟨a, a', ha, ha', haa⟩
  · rw [ha, ha']
    exact h.alike.childText .name
  · rw [ha, ha']
    exact congrArg some haa.alike.labels.text

theorem Strips.boundNames (h : n.Strips n') : n'.boundNames = n.boundNames := by
  have hpicked : ∀ kind, kind ≠ .comment →
      List.Forall₂ Strips (n.namedChildren.filter (fun c => c.kind = kind))
        (n'.namedChildren.filter (fun c => c.kind = kind)) := by
    intro kind hkind
    refine h.alike.namedChildren.forall₂_filter (fun c c' hc => by rw [hc.alike.labels.kind]) ?_
    intro c hc
    simpa [hc.1] using hkind.symm
  unfold Node.boundNames
  rw [h.alike.labels.kind]
  split
  · rw [h.alike.labels.text]
  · exact map_list_eq_of_rel (hpicked .identifier (by simp)) fun _ _ hc => hc.alike.labels.text
  · exact filterMap_eq_of_rel (hpicked .importSpecifier (by simp)) fun _ _ hc => hc.localName?
  · rfl

theorem boundNames_aside {c : Node} (hc : c.IsAside) : c.boundNames = [] := by
  simp [Node.boundNames, hc.1]

theorem Strips.importClause? (h : n.Strips n') :
    Option.Rel Strips n.importClause? n'.importClause? :=
  h.alike.namedChildren.find? (fun c c' hc => by rw [hc.alike.labels.kind])
    fun c hc => by simp [hc.1]

theorem flatMap_boundNames {cs cs' : List Node} (h : Trimmed Strips cs cs') :
    cs'.flatMap Node.boundNames = cs.flatMap Node.boundNames := by
  induction h with
  | nil => rfl
  | keep hc _ ih => rw [List.flatMap_cons, List.flatMap_cons, hc.boundNames, ih]
  | drop hc _ ih => rw [List.flatMap_cons, boundNames_aside hc, ih, List.nil_append]

theorem Strips.imports (h : n.Strips n') (name : String) : n'.imports name = n.imports name := by
  unfold Node.imports
  rw [h.alike.labels.kind]
  rcases rel_cases h.importClause? with ⟨hc, hc'⟩ | ⟨c, c', hc, hc', hcc⟩
  · rw [hc, hc']
  · rw [hc, hc']
    dsimp only
    rw [flatMap_boundNames hcc.alike.namedChildren]

theorem Strips.specifier? (h : n.Strips n') : n'.specifier? = n.specifier? := by
  unfold Node.specifier? Node.unquoted
  rcases rel_cases (h.alike.child? .source) with ⟨hc, hc'⟩ | ⟨c, c', hc, hc', hcc⟩
  · rw [hc, hc']
  · rw [hc, hc']
    dsimp only
    rw [hcc.alike.labels.kind, hcc.alike.labels.text]

theorem Strips.importPath? (h : root.Strips root') (name : String) :
    root'.importPath? name = root.importPath? name :=
  bind_eq_of_rel (h.alike.namedChildren.find? (fun _ _ hc => hc.imports name)
    fun c hc => by simp [Node.imports, hc.1]) fun _ _ hc => hc.specifier?

theorem Strips.returnedIdentifier? (h : n.Strips n') :
    n'.returnedIdentifier? = n.returnedIdentifier? := by
  unfold Node.returnedIdentifier?
  rw [h.alike.labels.kind]
  split
  · rcases rel_cases (h.alike.child? .body) with ⟨hc, hc'⟩ | ⟨c, c', hc, hc', hcc⟩
    · rw [hc, hc']
    · rw [hc, hc']
      dsimp only
      rw [hcc.alike.labels.kind, hcc.alike.labels.text]
  · rfl

theorem Strips.calledTarget? (h : n.Strips n') : n'.calledTarget? = n.calledTarget? := by
  unfold Node.calledTarget?
  have hreturned : n'.callArguments.head?.bind Node.returnedIdentifier? =
      n.callArguments.head?.bind Node.returnedIdentifier? :=
    bind_eq_of_rel (head?_rel h.alike_children.callArguments) fun _ _ hc => hc.returnedIdentifier?
  rcases rel_cases (h.alike.child? .function) with ⟨hc, hc'⟩ | ⟨c, c', hc, hc', hcc⟩
  · rw [hc, hc']
  · have hobject : (c'.child? .object).map (fun o => (⟨o.text, true, false⟩ : ImportTarget)) =
        (c.child? .object).map (fun o => ⟨o.text, true, false⟩) :=
      map_eq_of_rel (hcc.alike.child? .object) fun _ _ ho => by rw [ho.alike.labels.text]
    rw [hc, hc']
    dsimp only
    rw [hcc.alike.labels.kind, hcc.alike.labels.text, hreturned, hobject]

theorem Strips.importTarget? (h : n.Strips n') : n'.importTarget? = n.importTarget? := by
  unfold Node.importTarget?
  rw [h.alike.labels.kind, h.alike.labels.text, h.calledTarget?]

theorem Strips.sameProperties (h : n.Strips n') : SameProperties (Alike Strips) n n' :=
  h.alike_grandchildren.property?

theorem Strips.length_arrayProperty? (h : n.Strips n') (name : String) :
    ((n'.arrayProperty? name).getD []).length = ((n.arrayProperty? name).getD []).length := by
  rcases rel_cases (h.sameProperties.arrayProperty? name) with
    ⟨ha, ha'⟩ | ⟨es, es', ha, ha', hes⟩
  · rw [ha, ha']
  · rw [ha, ha']
    exact hes.length_eq.symm

theorem Strips.entityCount (h : n.Strips n') : n'.entityCount = n.entityCount := by
  unfold Node.entityCount
  rw [h.alike.labels.kind]
  split
  · rcases rel_cases (h.alike.child? .function) with ⟨hc, hc'⟩ | ⟨c, c', hc, hc', hcc⟩
    · rw [hc, hc']
    have hobject : (c'.child? .object).any (·.text = entityRoot) =
        (c.child? .object).any (·.text = entityRoot) := by
      rcases rel_cases (hcc.alike.child? .object) with ⟨ho, ho'⟩ | ⟨o, o', ho, ho', hoo⟩
      · rw [ho, ho']
      · rw [ho, ho', Option.any_some, Option.any_some, hoo.alike.labels.text]
    have hargs := h.alike_children.callArguments
    cases hfirst : n.callArguments with
    | nil =>
      rw [hfirst, List.forall₂_nil_left_iff] at hargs
      rw [hc, hc', hargs]
    | cons first rest =>
      rw [hfirst] at hargs
      obtain ⟨first', rest', hff, -, hargs'⟩ := List.forall₂_cons_left_iff.mp hargs
      rw [hc, hc', hargs']
      dsimp only
      rw [hcc.alike.labels.kind, hcc.alike.labels.text, hff.alike.labels.kind, hobject,
        hff.length_arrayProperty?, ← hff.alike.elements.length_eq]
  · rfl

theorem Strips.provider? (h : n.Strips n') (root : Node) :
    provider? root n' = provider? root n := by
  have hobject : SameProperties (Alike SameLabels) n n' := fun name => by
    rcases rel_cases (h.sameProperties name) with ⟨hv, hv'⟩ | ⟨v, v', hv, hv', hvv⟩
    · rw [hv, hv']
      exact .none
    · rw [hv, hv']
      exact .some (hvv.mono fun _ _ hc => hc.alike.labels)
  unfold ModuleGraph.provider?
  rw [h.alike.labels.kind, h.alike.labels.text, objectProvider?_of_sameProperties hobject]

theorem Strips.sameEntry (h : n.Strips n') : SameEntry n n' where
  labels := h.alike.labels
  target := h.importTarget?
  entities := h.entityCount
  provider := h.provider?

theorem Strips.sameConfiguration (h : n.Strips n') : SameConfiguration n n' := by
  intro name
  rcases rel_cases (h.sameProperties.arrayProperty? name) with
    ⟨ha, ha'⟩ | ⟨es, es', ha, ha', hes⟩
  · rw [ha, ha']
    exact .none
  · rw [ha, ha']
    exact .some (hes.imp fun _ _ he => he.sameEntry)

/-- The classes that two trees declare correspond, and so do their decorators. -/
structure StripsClass (decl decl' : ClassDeclaration) : Prop where
  node : decl.node.Strips decl'.node
  name : decl'.name = decl.name
  decorators : List.Forall₂ Strips decl.decorators decl'.decorators

theorem Strips.asClass (h : n.Strips n') {outer outer' : List Node}
    (houter : List.Forall₂ Strips outer outer') :
    StripsClass (n.asClass outer) (n'.asClass outer') where
  node := h
  name := h.alike.childText .name
  decorators := List.rel_append houter h.alike.decorators

theorem Strips.declaredClass? (h : n.Strips n') :
    Option.Rel StripsClass n.declaredClass? n'.declaredClass? := by
  have hclass : ∀ {n n' : Node}, n.Strips n' → n'.isClass = n.isClass := fun h => by
    rw [isClass, isClass, h.alike.labels.kind]
  unfold Node.declaredClass?
  rw [hclass h, h.alike.labels.kind]
  split
  · exact .some (h.asClass .nil)
  · split
    · rcases rel_cases (h.alike.child? .declaration) with ⟨hd, hd'⟩ | ⟨d, d', hd, hd', hdd⟩
      · rw [hd, hd']
        exact .none
      · rw [hd, hd']
        dsimp only
        rw [hclass hdd]
        split
        · exact .some (hdd.asClass h.alike.decorators)
        · exact .none
    · exact .none

theorem Strips.topLevelClasses (h : root.Strips root') :
    List.Forall₂ StripsClass root.topLevelClasses root'.topLevelClasses :=
  h.alike.namedChildren.filterMap (fun _ _ hc => hc.declaredClass?)
    fun c hc => by simp [Node.declaredClass?, isClass, hc.1]

theorem StripsClass.same {decl decl' : ClassDeclaration} (h : StripsClass decl decl') :
    decl.Same decl' := by
  have hdecorators : List.Forall₂ (Alike (Alike (Alike Strips))) decl.decorators
      decl'.decorators := h.decorators.imp fun _ _ hd => hd.alike_grandchildren
  have hbody : Option.Rel (Alike (Alike (Alike Strips))) (decl.node.child? .body)
      (decl'.node.child? .body) := by
    rcases rel_cases (h.node.alike.child? .body) with ⟨hb, hb'⟩ | ⟨b, b', hb, hb', hbb⟩
    · rw [hb, hb']
      exact .none
    · rw [hb, hb']
      exact .some hbb.alike_grandchildren
  have htypes : decl'.constructorTypes = decl.constructorTypes :=
    constructorTypes_of_body (fun _ _ => Strips.parameterType?) hbody
  exact ClassDeclaration.same_of_alike (fun _ _ _ hc => hc.sameConfiguration) h.name hdecorators
    htypes

theorem Strips.same_topLevelClasses (h : root.Strips root') :
    List.Forall₂ ClassDeclaration.Same root.topLevelClasses root'.topLevelClasses :=
  h.topLevelClasses.imp fun _ _ hc => hc.same

theorem Strips.sameModule (h : root.Strips root') : SameModule root root' where
  importPath? := h.importPath?
  class? := fun name => find?_rel h.same_topLevelClasses fun _ _ hc => by rw [hc.name]
  moduleClass? := moduleClass?_rel h.same_topLevelClasses

/-- A decorator is found in the same place. -/
theorem findDecorator_getElem? {ds ds' : List Node} (h : List.Forall₂ Strips ds ds')
    (name : String) :
    ∃ i : Nat, findDecorator ds name = ds[i]? ∧ findDecorator ds' name = ds'[i]? := by
  have hplace : ds'.findIdx (fun d => d.decoratorName? = some name) =
      ds.findIdx (fun d => d.decoratorName? = some name) := by
    induction h with
    | nil => rfl
    | cons hd _ ih =>
      rw [List.findIdx_cons, List.findIdx_cons, ih, hd.alike_grandchildren.decoratorName?]
  refine ⟨ds.findIdx fun d => d.decoratorName? = some name, ?_, ?_⟩
  · rw [findDecorator, List.find?_eq_getElem?_findIdx]
  · rw [findDecorator, List.find?_eq_getElem?_findIdx, hplace]

/-- Leaving out comments changes nothing that is read from a tree: neither what each of a number
of readings returns and reports, also as it is after the last of them, nor where a name is
imported from, nor what the constructor of a class asks for, nor whether it is injectable. The
same classes are declared with the same decorators, and a decorator is found where it was. -/
theorem Strips.readings (h : root.Strips root') :
    (∀ file times reader,
      reader.outcomes root' file times = reader.outcomes root file times ∧
        rereadModules root' file times reader = rereadModules root file times reader) ∧
    (∀ name, root'.importPath? name = root.importPath? name) ∧
    (∀ name, root'.constructorDependencies name = root.constructorDependencies name) ∧
    (∀ name, root'.isInjectable name = root.isInjectable name) ∧
    List.Forall₂ (fun decl decl' => decl'.name = decl.name ∧
        decl'.constructorTypes = decl.constructorTypes ∧
        List.Forall₂ Strips decl.decorators decl'.decorators)
      root.topLevelClasses root'.topLevelClasses ∧
    ∀ ds ds' : List Node, List.Forall₂ Strips ds ds' → ∀ name,
      ∃ i : Nat, findDecorator ds name = ds[i]? ∧ findDecorator ds' name = ds'[i]? := by
  have hmodule := h.sameModule
  have hdecoys := fun file => decoyNotices_of_same file h.same_topLevelClasses
  exact ⟨fun file times reader =>
      ⟨FileReader.outcomes_of_sameModule hmodule file times reader (hdecoys file),
        hmodule.rereadModules file times reader (hdecoys file)⟩,
    hmodule.importPath?, hmodule.constructorDependencies, hmodule.isInjectable,
    h.topLevelClasses.imp fun _ _ hc => ⟨hc.name, hc.same.constructorTypes, hc.decorators⟩,
    fun _ _ => findDecorator_getElem?⟩

mutual

def withoutAsides : Node → Node
  | ⟨kind, field, named, text, children⟩ => ⟨kind, field, named, text, withoutAsidesIn children⟩

def withoutAsidesIn : List Node → List Node
  | [] => []
  | c :: cs =>
    if c.kind = .comment ∧ c.field = none then withoutAsidesIn cs
    else c.withoutAsides :: withoutAsidesIn cs

end

mutual

theorem strips_withoutAsides : ∀ n : Node, n.Strips n.withoutAsides
  | ⟨kind, field, named, text, children⟩ => by
    rw [withoutAsides]
    exact .node ⟨rfl, rfl, rfl, rfl⟩ (trimmed_withoutAsidesIn children)

theorem trimmed_withoutAsidesIn : ∀ cs : List Node, Trimmed Strips cs (withoutAsidesIn cs)
  | [] => by
    rw [withoutAsidesIn]
    exact .nil
  | c :: cs => by
    rw [withoutAsidesIn]
    split
    · rename_i haside
      exact .drop haside (trimmed_withoutAsidesIn cs)
    · exact .keep (strips_withoutAsides c) (trimmed_withoutAsidesIn cs)

end

def remark : Node := ⟨.comment, none, true, "/* */", []⟩

/-- The tree of a class with the decorator `@Module({ imports: [A] })` and with a comment at
every level. -/
def remarked : Node :=
  let array : Node := ⟨.array, some .value, true, "[A]",
    [remark, ⟨.identifier, none, true, "A", []⟩]⟩
  let pair : Node := ⟨.pair, none, true, "imports: [A]",
    [⟨.propertyIdentifier, some .key, true, "imports", []⟩, remark, array]⟩
  let object : Node := ⟨.object, none, true, "{ imports: [A] }", [remark, pair]⟩
  let arguments : Node := ⟨.other "arguments", some .arguments, true, "({ imports: [A] })",
    [remark, object]⟩
  let call : Node := ⟨.callExpression, none, true, "Module({ imports: [A] })",
    [⟨.identifier, some .function, true, "Module", []⟩, remark, arguments]⟩
  let decorator : Node := ⟨.decorator, none, true, "@Module({ imports: [A] })", [remark, call]⟩
  let decl : Node := ⟨.classDeclaration, none, true, "@Module({ imports: [A] }) class M {}",
    [decorator, ⟨.typeIdentifier, some .name, true, "M", []⟩]⟩
  ⟨.other "program", none, true, "@Module({ imports: [A] }) class M {}", [remark, decl]⟩

theorem readings_remarked :
    remarked.Strips remarked.withoutAsides ∧
    remarked.elements.length < remarked.namedChildren.length ∧
    remarked.withoutAsides.namedChildren.length = 1 ∧
    (rereadModules remarked.withoutAsides "m.ts" 2 {}).1.map
        (Option.map fun m => (m.name, m.imports.map (·.name))) =
      [some ("M", ["A"]), some ("M", ["A"])] := by
  obtain ⟨hread, -⟩ := (strips_withoutAsides remarked).readings
  refine ⟨strips_withoutAsides remarked, by decide, by decide, ?_⟩
  rw [(hread "m.ts" 2 {}).2]
  decide +kernel

end Node

end ModuleGraph
