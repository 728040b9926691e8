import ModuleGraph.Proofs.WalkOrder

/-! Walks that may end early. A walk over places in order finds the files before the first place
where it fails, and it ends with that failure. -/

namespace ModuleGraph.Walk

variable {root : Path} {visit visit' : List String → Except WalkEnd Bool}
variable {places places' : List (List String)}

theorem along_eq (place : List String) (rest : List (List String)) :
    along root visit (place :: rest) =
      match visit place with
      | .error e => ⟨[], some e⟩
      | .ok isFile =>
        ⟨if isFile then root.below place :: (along root visit rest).files
          else (along root visit rest).files, (along root visit rest).failure⟩ := by
  rw [along]
  cases visit place with
  | error e => rfl
  | ok isFile => cases isFile <;> rfl

/-- The files of a walk are those before the first place where it stops. -/
theorem mem_along_iff (hplaces : places.Pairwise (· < ·)) {file : Path} :
    file ∈ (along root visit places).files ↔
      ∃ place ∈ places, file = root.below place ∧ visit place = .ok true ∧
        ∀ other ∈ places, ∀ e, visit other = .error e → place < other := by
  induction places with
  | nil => simp [along]
  | cons first rest ih =>
    obtain ⟨hfirst, hrest⟩ := List.pairwise_cons.mp hplaces
    rw [along_eq]
    cases hvisit : visit first with
    | error e =>
      refine iff_of_false (by simp) ?_
      rintro ⟨place, hplace, -, -, hbefore⟩
      have hlt := hbefore first List.mem_cons_self e hvisit
      rcases List.mem_cons.mp hplace with rfl | hplace
      · exact lt_irrefl _ hlt
      · exact lt_asymm hlt (hfirst place hplace)
    | ok isFile =>
      have hlater : ∀ place, (∀ other ∈ first :: rest, ∀ e, visit other = .error e →
          place < other) ↔ ∀ other ∈ rest, ∀ e, visit other = .error e → place < other := by
        intro place
        rw [List.forall_mem_cons, hvisit]
        simp
      have hhead : ∀ other ∈ rest, ∀ e, visit other = .error e → first < other :=
        fun other hother _ _ => hfirst other hother
      simp only [hlater, List.exists_mem_cons_iff, hvisit]
      cases isFile with
      | true =>
        rw [if_pos rfl, List.mem_cons, ih hrest]
        refine or_congr_left ⟨?_, fun h => h.1⟩
        rintro rfl
        exact ⟨rfl, rfl, hhead⟩
      | false =>
        rw [if_neg (by simp), ih hrest]
        exact (or_iff_right (by simp)).symm

theorem failure_along_eq_some_iff (hplaces : places.Pairwise (· < ·)) {e : WalkEnd} :
    (along root visit places).failure = some e ↔
      ∃ place ∈ places, visit place = .error e ∧
        ∀ other ∈ places, ∀ e', visit other = .error e' → ¬ other < place := by
  induction places with
  | nil => simp [along]
  | cons first rest ih =>
    obtain ⟨hfirst, hrest⟩ := List.pairwise_cons.mp hplaces
    rw [along_eq]
    cases hvisit : visit first with
    | error e' =>
      constructor
      · intro h
        obtain rfl : e' = e := Option.some.inj h
        refine ⟨first, List.mem_cons_self, hvisit, fun other hother _ _ hlt => ?_⟩
        rcases List.mem_cons.mp hother with rfl | hother
        · exact lt_irrefl _ hlt
        · exact lt_asymm hlt (hfirst other hother)
      · rintro ⟨place, hplace, he, hnone⟩
        rcases List.mem_cons.mp hplace with rfl | hplace
        · rw [hvisit, Except.error.injEq] at he
          exact congrArg some he
        · exact absurd (hfirst place hplace) (hnone first List.mem_cons_self e' hvisit)
    | ok isFile =>
      dsimp only
      rw [ih hrest, List.exists_mem_cons_iff, hvisit]
      simp [hvisit]

theorem failure_along_eq_none_iff : (along root visit places).failure = none ↔
    ∀ place ∈ places, ∃ isFile, visit place = .ok isFile := by
  induction places with
  | nil => simp [along]
  | cons first rest ih =>
    rw [along_eq, List.forall_mem_cons]
    cases hvisit : visit first with
    | error e => simp
    | ok isFile => simp [ih]

/-- A walk gets to its end if it fails nowhere. -/
theorem exists_along (hok : ∀ place ∈ places, ∃ isFile, visit place = .ok isFile) :
    ∃ files, along root visit places = ⟨files, none⟩ :=
  ⟨_, congrArg (Walk.mk _) (failure_along_eq_none_iff.mpr hok)⟩

/-- A walk that got to its end has failed nowhere and found all the files. -/
theorem of_along_eq (hplaces : places.Pairwise (· < ·)) {files : List Path}
    (h : along root visit places = ⟨files, none⟩) :
    (∀ place ∈ places, ∃ isFile, visit place = .ok isFile) ∧ ∀ file, file ∈ files ↔
      ∃ place ∈ places, file = root.below place ∧ visit place = .ok true := by
  have hok := failure_along_eq_none_iff.mp (congrArg Walk.failure h)
  have hfiles : (along root visit places).files = files := congrArg Walk.files h
  refine ⟨hok, fun file => ?_⟩
  rw [← hfiles, mem_along_iff hplaces]
  refine exists_congr fun place => and_congr_right fun _ => and_congr_right fun _ => ?_
  refine and_iff_left fun other hother e he => ?_
  obtain ⟨isFile, hvisit⟩ := hok other hother
  cases hvisit.symm.trans he

theorem files_along_sublist (places : List (List String)) :
    (along root visit places).files.Sublist (places.map root.below) := by
  induction places with
  | nil => exact List.Sublist.slnil
  | cons first rest ih =>
    rw [along_eq]
    split
    · exact List.nil_sublist _
    · dsimp only
      split
      · exact ih.cons_cons _
      · exact ih.cons _

theorem pairwise_files_along (hplaces : places.Pairwise (· < ·)) :
    (along root visit places).files.Pairwise (fun a b => a.parts < b.parts) := by
  have hall : (places.map root.below).Pairwise (fun a b => a.parts < b.parts) :=
    hplaces.map _ fun a b hab => List.append_left_lt hab
  exact hall.sublist (files_along_sublist _)

theorem along_of_ok {isFile : List String → Bool}
    (h : ∀ place ∈ places, visit place = .ok (isFile place)) :
    along root visit places = ⟨(places.filter isFile).map root.below, none⟩ := by
  induction places with
  | nil => rfl
  | cons first rest ih =>
    obtain ⟨hfirst, hrest⟩ := List.forall_mem_cons.mp h
    rw [along_eq, hfirst, ih hrest, List.filter_cons]
    cases isFile first <;> rfl

/-- Walks may differ in places that are neither files nor the end of a walk. -/
theorem along_ext (hplaces : places.Pairwise (· < ·)) (hplaces' : places'.Pairwise (· < ·))
    (hfiles : ∀ place, place ∈ places' ∧ visit' place = .ok true ↔
      place ∈ places ∧ visit place = .ok true)
    (hstops : ∀ place e, place ∈ places' ∧ visit' place = .error e ↔
      place ∈ places ∧ visit place = .error e) :
    along root visit' places' = along root visit places := by
  have hbefore : ∀ {P : List String → WalkEnd → Prop},
      (∀ other ∈ places', ∀ e, visit' other = .error e → P other e) ↔
        ∀ other ∈ places, ∀ e, visit other = .error e → P other e := by
    intro P
    constructor
    · intro h other hother e he
      obtain ⟨hother, he⟩ := (hstops other e).mpr ⟨hother, he⟩
      exact h other hother e he
    · intro h other hother e he
      obtain ⟨hother, he⟩ := (hstops other e).mp ⟨hother, he⟩
      exact h other hother e he
  have hfailure : (along root visit' places').failure = (along root visit places).failure := by
    refine Option.ext fun e => ?_
    rw [failure_along_eq_some_iff hplaces', failure_along_eq_some_iff hplaces]
    simp only [← and_assoc, hstops, hbefore]
  have hsame : (along root visit' places').files = (along root visit places).files := by
    refine FileTree.eq_of_pairwise (fun _ _ => lt_asymm)
      (pairwise_files_along hplaces') (pairwise_files_along hplaces) fun file => ?_
    rw [mem_along_iff hplaces', mem_along_iff hplaces]
    simp only [hbefore]
    refine exists_congr fun place => ?_
    constructor
    · rintro ⟨hplace, rfl, hvisit, hfirst⟩
      obtain ⟨hplace, hvisit⟩ := (hfiles place).mp ⟨hplace, hvisit⟩
      exact ⟨hplace, rfl, hvisit, hfirst⟩
    · rintro ⟨hplace, rfl, hvisit, hfirst⟩
      obtain ⟨hplace, hvisit⟩ := (hfiles place).mpr ⟨hplace, hvisit⟩
      exact ⟨hplace, rfl, hvisit, hfirst⟩
  exact (Walk.mk.injEq ..).mpr ⟨hsame, hfailure⟩

end ModuleGraph.Walk
