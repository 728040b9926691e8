import Mathlib.Data.List.Forall2
import Mathlib.Data.List.Range
import ModuleGraph.Extraction

/-! The imports array of a module, element by element. Every element has its record in its own
place. The elements that name no module are numbered in order from the next placeholder on, so a
list can be cut anywhere and read in two parts. -/

namespace ModuleGraph

namespace Node

/-- An element of an imports array names a module: by itself, by a function that returns it, or by
a call of it or of one of its methods. -/
inductive Names : Node → ImportTarget → Prop
  | bare {e : Node} : e.kind = .identifier → Names e ⟨e.text, false, false⟩
  | deferred {e callee f body : Node} {rest : List Node} : e.kind = .callExpression →
      e.child? .function = some callee → callee.kind = .identifier → callee.text = "forwardRef" →
      e.callArguments = f :: rest → f.kind = .arrowFunction → f.child? .body = some body →
      body.kind = .identifier → Names e ⟨body.text, true, true⟩
  | called {e callee : Node} : e.kind = .callExpression → e.child? .function = some callee →
      callee.kind = .identifier → callee.text ≠ "forwardRef" → Names e ⟨callee.text, true, false⟩
  | member {e callee object : Node} : e.kind = .callExpression →
      e.child? .function = some callee → callee.kind = .memberExpression →
      callee.child? .object = some object → Names e ⟨object.text, true, false⟩

def IsNamed (e : Node) : Prop := ∃ target, e.Names target

/-- An element of an imports array registers the entities that an array lists: the first argument
of a feature registration, or the `entities` of a configuration of the entity root. -/
inductive Registers : Node → Node → Prop
  | feature {e callee listed : Node} {rest : List Node} : e.kind = .callExpression →
      e.child? .function = some callee → callee.kind = .memberExpression →
      callee.text ∈ featureRegistrations → e.callArguments = listed :: rest →
      listed.kind = .array → Registers e listed
  | configured {e callee object config listed : Node} {rest : List Node} :
      e.kind = .callExpression → e.child? .function = some callee →
      callee.kind = .memberExpression → callee.child? .object = some object →
      object.text = entityRoot → e.callArguments = config :: rest → config.kind = .object →
      config.property? "entities" = some listed → listed.kind = .array → Registers e listed

section Target

variable {e f : Node} {target : ImportTarget}

theorem Names.importTarget? (h : e.Names target) : e.importTarget? = some target := by
  cases h with
  | bare hbare => simp [Node.importTarget?, hbare]
  | deferred hcall hcallee hkind htext hargs harrow hbody hreturned =>
    simp [Node.importTarget?, calledTarget?, returnedIdentifier?, hcall, hcallee, hkind, htext,
      hargs, harrow, hbody, hreturned]
  | called hcall hcallee hkind htext =>
    simp [Node.importTarget?, calledTarget?, hcall, hcallee, hkind, htext]
  | member hcall hcallee hkind hobject =>
    simp [Node.importTarget?, calledTarget?, hcall, hcallee, hkind, hobject]

theorem exists_body_of_returnedIdentifier? {name : String} (h : f.returnedIdentifier? = some name) :
    f.kind = .arrowFunction ∧
      ∃ body, f.child? .body = some body ∧ body.kind = .identifier ∧ body.text = name := by
  unfold returnedIdentifier? at h
  split at h
  · rename_i harrow
    split at h
    · rename_i body hbody
      obtain ⟨hreturned, hname⟩ := Option.ite_none_right_eq_some.mp h
      exact ⟨harrow, body, hbody, hreturned, Option.some.inj hname⟩
    · cases h
  · cases h

theorem names_of_calledTarget? (hcall : e.kind = .callExpression)
    (h : e.calledTarget? = some target) : e.Names target := by
  unfold calledTarget? at h
  split at h
  · cases h
  rename_i callee hcallee
  split at h
  · rename_i hkind
    split at h
    · rename_i htext
      obtain ⟨name, hname, rfl⟩ := Option.map_eq_some_iff.mp h
      obtain ⟨f, hf, hreturned⟩ := Option.bind_eq_some_iff.mp hname
      obtain ⟨rest, hargs⟩ := List.head?_eq_some_iff.mp hf
      obtain ⟨harrow, body, hbody, hbare, rfl⟩ := exists_body_of_returnedIdentifier? hreturned
      exact .deferred hcall hcallee hkind htext hargs harrow hbody hbare
    · rename_i htext
      cases h
      exact .called hcall hcallee hkind htext
  · split at h
    · rename_i hkind
      obtain ⟨object, hobject, rfl⟩ := Option.map_eq_some_iff.mp h
      exact .member hcall hcallee hkind hobject
    · cases h

theorem importTarget?_eq_some_iff : e.importTarget? = some target ↔ e.Names target := by
  refine ⟨fun h => ?_, Names.importTarget?⟩
  unfold Node.importTarget? at h
  split at h
  · rename_i hbare
    cases h
    exact .bare hbare
  · split at h
    · rename_i hcall
      exact names_of_calledTarget? hcall h
    · cases h

theorem isSome_importTarget?_iff : e.importTarget?.isSome ↔ e.IsNamed := by
  rw [Option.isSome_iff_exists]
  exact exists_congr fun _ => importTarget?_eq_some_iff

instance (e : Node) : Decidable e.IsNamed :=
  decidable_of_iff _ isSome_importTarget?_iff

end Target

section Entities

variable {e listed other : Node}

theorem Registers.entityCount (h : e.Registers listed) :
    e.entityCount = listed.elements.length := by
  cases h with
  | feature hcall hcallee hkind hfeature hargs harray =>
    simp [Node.entityCount, hcall, hcallee, hkind, hfeature, hargs, harray]
  | configured hcall hcallee hkind hobject htext hargs hconfig hlisted harray =>
    simp [Node.entityCount, arrayProperty?, hcall, hcallee, hkind, hobject, htext, hargs, hconfig,
      hlisted, harray]

/-- No argument is an array and an object at once, so an element registers one array at most. -/
theorem Registers.eq (h : e.Registers listed) (h' : e.Registers other) : other = listed := by
  cases h with
  | feature _ _ _ _ hargs harray =>
    cases h' with
    | feature _ _ _ _ hargs' _ =>
      exact (List.cons.inj (hargs'.symm.trans hargs)).1
    | configured _ _ _ _ _ hargs' hconfig _ _ =>
      obtain ⟨rfl, -⟩ := List.cons.inj (hargs'.symm.trans hargs)
      cases harray.symm.trans hconfig
  | configured _ _ _ _ _ hargs hconfig hlisted _ =>
    cases h' with
    | feature _ _ _ _ hargs' harray =>
      obtain ⟨rfl, -⟩ := List.cons.inj (hargs'.symm.trans hargs)
      cases harray.symm.trans hconfig
    | configured _ _ _ _ _ hargs' _ hlisted' _ =>
      obtain ⟨rfl, -⟩ := List.cons.inj (hargs'.symm.trans hargs)
      exact Option.some.inj (hlisted'.symm.trans hlisted)

theorem exists_registers_of_entityCount (h : e.entityCount ≠ 0) : ∃ listed, e.Registers listed := by
  unfold Node.entityCount at h
  split at h
  · rename_i hcall
    split at h
    · rename_i callee first rest hcallee hargs
      split at h
      · rename_i hkind
        -- Both tests ask for the kind of the first argument, so one of the two terms is zero.
        by_cases hfeature : callee.text ∈ featureRegistrations ∧ first.kind = .array
        · exact ⟨first, .feature hcall hcallee hkind hfeature.1 hargs hfeature.2⟩
        · rw [if_neg (by simpa using hfeature), Nat.zero_add] at h
          obtain ⟨hconfig, hlength⟩ := ite_ne_right_iff.mp h
          rw [Bool.and_eq_true, Option.any_eq_true] at hconfig
          obtain ⟨⟨object, hobject, htext⟩, hobjectKind⟩ := hconfig
          rcases harray : first.arrayProperty? "entities" with _ | es
          · simp [harray] at hlength
          · unfold arrayProperty? at harray
            split at harray
            · rename_i listed hlisted
              obtain ⟨hlistedKind, -⟩ := Option.ite_none_right_eq_some.mp harray
              exact ⟨listed, .configured hcall hcallee hkind hobject (by simpa using htext) hargs
                (by simpa using hobjectKind) hlisted hlistedKind⟩
            · cases harray
      · exact absurd rfl h
    · exact absurd rfl h
  · exact absurd rfl h

theorem entityCount_cases (e : Node) : (∀ listed, ¬ e.Registers listed) ∧ e.entityCount = 0 ∨
    ∃ listed, e.Registers listed ∧ (∀ other, e.Registers other → other = listed) ∧
      e.entityCount = listed.elements.length := by
  by_cases h : ∃ listed, e.Registers listed
  · obtain ⟨listed, hlisted⟩ := h
    exact .inr ⟨listed, hlisted, fun other => hlisted.eq, hlisted.entityCount⟩
  · refine .inl ⟨fun listed hlisted => h ⟨listed, hlisted⟩, ?_⟩
    by_contra hcount
    exact h (exists_registers_of_entityCount hcount)

theorem entityTotal_append (xs ys : List Node) :
    entityTotal (xs ++ ys) = entityTotal xs + entityTotal ys := by
  induction xs with
  | nil => simp [entityTotal]
  | cons x xs ih =>
    rw [List.cons_append, entityTotal, entityTotal, ih]
    omega

end Entities

end Node

def ImportTarget.record (root : Node) (target : ImportTarget) : ImportRecord where
  name := target.name
  path := root.importPath? target.name
  isAsync := target.isAsync
  isForwardReference := target.isForwardReference

/-- The record of an import that names no module. -/
def unknownImport (n : Nat) : ImportRecord where
  name := s!"UnknownModule_{n}"

/-- The number of elements that name no module. -/
def unnamedCount (es : List Node) : Nat :=
  es.countP (fun e => ¬ e.IsNamed)

section Records

variable {root e : Node}

theorem importRecords_named {target : ImportTarget} (h : e.Names target) (c : Nat)
    (es : List Node) : importRecords root c (e :: es) =
      (target.record root :: (importRecords root c es).1, (importRecords root c es).2) := by
  rw [importRecords, h.importTarget?]
  rfl

theorem importRecords_unnamed (h : ¬ e.IsNamed) (c : Nat) (es : List Node) :
    importRecords root c (e :: es) =
      (unknownImport c :: (importRecords root (c + 1) es).1, (importRecords root (c + 1) es).2) := by
  have hnone : e.importTarget? = none := by
    rwa [← Node.isSome_importTarget?_iff, Option.not_isSome_iff_eq_none] at h
  rw [importRecords, hnone]
  rfl

theorem importRecords_append (root : Node) (c : Nat) (xs ys : List Node) :
    importRecords root c (xs ++ ys) =
      ((importRecords root c xs).1 ++ (importRecords root (importRecords root c xs).2 ys).1,
        (importRecords root (importRecords root c xs).2 ys).2) := by
  induction xs generalizing c with
  | nil => rfl
  | cons x xs ih =>
    rw [List.cons_append]
    by_cases hx : x.IsNamed
    · obtain ⟨target, htarget⟩ := hx
      rw [importRecords_named htarget, importRecords_named htarget, ih]
      rfl
    · rw [importRecords_unnamed hx, importRecords_unnamed hx, ih]
      rfl

theorem importRecords_inPlace (root : Node) (c : Nat) (es : List Node) :
    List.Forall₂ (fun e r => ∀ target, e.Names target → r = target.record root) es
      (importRecords root c es).1 := by
  induction es generalizing c with
  | nil => exact .nil
  | cons e es ih =>
    by_cases he : e.IsNamed
    · obtain ⟨target, htarget⟩ := he
      rw [importRecords_named htarget]
      refine .cons (fun other hother => ?_) (ih c)
      rw [Option.some.inj (htarget.importTarget?.symm.trans hother.importTarget?)]
    · rw [importRecords_unnamed he]
      exact .cons (fun target htarget => absurd ⟨target, htarget⟩ he) (ih (c + 1))

/-- The elements that name no module get the numbers from `c` on. -/
theorem importRecords_numbered (root : Node) (c : Nat) (es : List Node) :
    ((es.zip (importRecords root c es).1).filter (fun p => ¬ p.1.IsNamed)).map Prod.snd =
        (List.range' c (unnamedCount es)).map unknownImport ∧
      (importRecords root c es).2 = c + unnamedCount es := by
  -- Only an element that names no module moves the counter, so `c` varies along the list.
  induction es generalizing c with
  | nil => exact ⟨rfl, rfl⟩
  | cons e es ih =>
    by_cases he : e.IsNamed
    · have hcount : unnamedCount (e :: es) = unnamedCount es := by
        simp [unnamedCount, he]
      obtain ⟨target, htarget⟩ := he
      obtain ⟨hrecords, hnext⟩ := ih c
      rw [importRecords_named htarget, hcount]
      refine ⟨?_, hnext⟩
      rw [List.zip_cons_cons, List.filter_cons_of_neg (by simpa using ⟨target, htarget⟩), hrecords]
    · have hcount : unnamedCount (e :: es) = unnamedCount es + 1 := by
        simp [unnamedCount, he]
      obtain ⟨hrecords, hnext⟩ := ih (c + 1)
      rw [importRecords_unnamed he, hcount, List.range'_succ]
      refine ⟨?_, by rw [hnext]; omega⟩
      rw [List.zip_cons_cons, List.filter_cons_of_pos (by simpa using he), List.map_cons, hrecords]
      rfl

theorem exists_of_mem_importRecords {c : Nat} {es : List Node} {r : ImportRecord}
    (hr : r ∈ (importRecords root c es).1) :
    (∃ (e : Node) (target : ImportTarget), e.Names target ∧ r = target.record root) ∨
      ∃ n, r = unknownImport n := by
  induction es generalizing c with
  | nil => cases hr
  | cons e es ih =>
    by_cases he : e.IsNamed
    · obtain ⟨target, htarget⟩ := he
      rw [importRecords_named htarget] at hr
      rcases List.mem_cons.mp hr with rfl | hr
      · exact .inl ⟨e, target, htarget, rfl⟩
      · exact ih hr
    · rw [importRecords_unnamed he] at hr
      rcases List.mem_cons.mp hr with rfl | hr
      · exact .inr ⟨c, rfl⟩
      · exact ih hr

theorem Node.Names.isAsync {target : ImportTarget} (h : e.Names target)
    (hforward : target.isForwardReference = true) : target.isAsync = true := by
  cases h <;> first | rfl | cases hforward

/-- The imports of a module are read off the imports array of its configuration, and so is its
entity count. -/
theorem imports_configuredReading (file name : String) (config : Node) (memory : Memory) :
    ∃ m, (configuredReading root file name config memory).module = some m ∧
      m.imports.map (fun i => { i with dependencies := [] }) =
        (importRecords root memory.nextId ((config.arrayProperty? "imports").getD [])).1 ∧
      m.entityCount =
        Int.ofNat (Node.entityTotal ((config.arrayProperty? "imports").getD [])) := by
  refine ⟨_, rfl, ?_, rfl⟩
  show (enrichImports _ _).map _ = _
  rw [enrichImports, List.map_map]
  refine (List.map_congr_left fun r hr => ?_).trans (List.map_id _)
  rcases exists_of_mem_importRecords hr with ⟨e, target, -, rfl⟩ | ⟨n, rfl⟩ <;> rfl

end Records

/-- Reading an imports array from placeholder `c` on gives one record for each element, in its
place. The elements that name no module are numbered from `c` on, in order. A list can be cut in
two, and the second part is read from where the first one ends. Each element adds to the entity
count what its one registered array holds, or nothing. -/
theorem importRecords_elements (root : Node) (c : Nat) :
    (∀ array : Node, ∃ records next, importRecords root c array.elements = (records, next) ∧
      List.Forall₂ (fun e r => ∀ target, e.Names target → r = target.record root)
        array.elements records ∧
      ((array.elements.zip records).filter (fun p => ¬ p.1.IsNamed)).map Prod.snd =
        (List.range' c (unnamedCount array.elements)).map unknownImport ∧
      next = c + unnamedCount array.elements ∧
      ∀ r ∈ records, r.isForwardReference = true → r.isAsync = true) ∧
    (∀ xs ys, importRecords root c (xs ++ ys) =
      ((importRecords root c xs).1 ++ (importRecords root (importRecords root c xs).2 ys).1,
        (importRecords root (importRecords root c xs).2 ys).2)) ∧
    (∀ xs ys, Node.entityTotal (xs ++ ys) = Node.entityTotal xs + Node.entityTotal ys) ∧
    (∀ e, (∀ listed, ¬ e.Registers listed) ∧ Node.entityTotal [e] = 0 ∨
      ∃ listed, e.Registers listed ∧ (∀ other, e.Registers other → other = listed) ∧
        Node.entityTotal [e] = listed.elements.length) ∧
    ∀ file name config memory, ∃ m, (configuredReading root file name config memory).module = some m ∧
      m.imports.map (fun i => { i with dependencies := [] }) =
        (importRecords root memory.nextId ((config.arrayProperty? "imports").getD [])).1 ∧
      m.entityCount =
        Int.ofNat (Node.entityTotal ((config.arrayProperty? "imports").getD [])) := by
  refine ⟨fun array => ⟨_, _, rfl, ?_, ?_, ?_, fun r hr hforward => ?_⟩,
    importRecords_append root c, Node.entityTotal_append, fun e => e.entityCount_cases,
    imports_configuredReading⟩
  · exact importRecords_inPlace root c array.elements
  · exact (importRecords_numbered root c array.elements).1
  · exact (importRecords_numbered root c array.elements).2
  · rcases exists_of_mem_importRecords hr with ⟨e, target, htarget, rfl⟩ | ⟨n, rfl⟩
    · exact htarget.isAsync hforward
    · cases hforward

end ModuleGraph
