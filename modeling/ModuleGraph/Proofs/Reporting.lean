import ModuleGraph.Project
import ModuleGraph.Proofs.Traversal

/-! Work on a project goes on in the same way whatever was reported before, and adds its own
notices to it. So the result of several steps in a row is made of the results of the steps. -/

namespace ModuleGraph

namespace Reporting

variable {α β : Type}

/-- Work that keeps what was reported before and does not depend on it. -/
def Appends (work : Reporting α) : Prop :=
  ∀ log, work.run.run log = (work.result.1, log ++ work.result.2)

theorem appends_pure (a : α) : Appends (pure a) := fun log =>
  congrArg (Prod.mk _) (List.append_nil log).symm

theorem appends_throw (e : Failure) : Appends (throw e : Reporting α) := fun log =>
  congrArg (Prod.mk _) (List.append_nil log).symm

theorem appends_report (notices : List Notice) : Appends (report notices) := fun _ => rfl

theorem appends_access (found : Except AccessError α) : Appends (access found) := by
  cases found with
  | ok a => exact appends_pure a
  | error e => exact appends_throw _

theorem run_bind (x : Reporting α) (f : α → Reporting β) (log : List Notice) :
    (x >>= f).run.run log =
      match (x.run.run log).1 with
      | .ok a => (f a).run.run (x.run.run log).2
      | .error e => (.error e, (x.run.run log).2) := by
  show (ExceptT.bindCont f (x.run.run log).1).run (x.run.run log).2 = _
  cases (x.run.run log).1 <;> rfl

theorem Appends.bind {x : Reporting α} {f : α → Reporting β} (hx : x.Appends)
    (hf : ∀ a, (f a).Appends) : (x >>= f).Appends := by
  intro log
  rw [result, run_bind, run_bind, hx log, hx []]
  cases x.result.1 with
  | error e => simp
  | ok a => simp [hf a (log ++ x.result.2), hf a x.result.2]

theorem Appends.ite {c : Prop} [Decidable c] {x y : Reporting α} (hx : x.Appends)
    (hy : y.Appends) : (if c then x else y).Appends := by
  split
  · exact hx
  · exact hy

theorem Appends.foldlM {f : β → α → Reporting β} (hf : ∀ b a, (f b a).Appends) (as : List α)
    (b : β) : (as.foldlM f b).Appends := by
  induction as generalizing b with
  | nil => exact appends_pure b
  | cons a as ih => exact (hf b a).bind ih

theorem fst_result_bind {x : Reporting α} {f : α → Reporting β} (hf : ∀ a, (f a).Appends) :
    (x >>= f).result.1 = x.result.1 >>= fun a => (f a).result.1 := by
  rw [result, run_bind, ← result]
  cases x.result.1 with
  | error e => rfl
  | ok a =>
    show ((f a).run.run x.result.2).1 = (f a).result.1
    rw [hf a]

theorem result_bind_of_ok {x : Reporting α} {f : α → Reporting β} {a : α}
    (hx : x.result.1 = .ok a) (hf : (f a).Appends) :
    (x >>= f).result = ((f a).result.1, x.result.2 ++ (f a).result.2) := by
  rw [result, run_bind, ← result, hx]
  exact hf x.result.2

end Reporting

open Reporting

namespace Settings

variable (stack : Stack) (d : Disk) (root : Path)

theorem appends_ofOwnFile : (ofOwnFile stack d root).Appends := by
  have hignored : ∀ cause,
      (report [.settingsIgnored (root.child fileName).text cause] >>= fun _ =>
        (pure none : Reporting (Option Value))).Appends :=
    fun cause => (appends_report _).bind fun _ => appends_pure none
  unfold ofOwnFile
  refine (appends_access _).bind fun found => .ite (appends_pure none) ?_
  split
  · exact hignored _
  · split
    · exact appends_throw _
    · refine .ite ((appends_throw _).bind fun _ => ?_) ?_
      all_goals
        split
        · exact appends_pure _
        · exact .ite ((appends_throw _).bind fun _ => hignored _) (hignored _)

theorem appends_ofPackageFile : (ofPackageFile stack d root).Appends := by
  unfold ofPackageFile
  refine (appends_access _).bind fun found => .ite (appends_pure none) ?_
  split
  · exact (appends_report _).bind fun _ => appends_pure none
  · refine .ite ((appends_throw _).bind fun _ => ?_) ?_
    all_goals
      dsimp only
      split
      · exact appends_pure _
      · exact (appends_report _).bind fun _ => appends_pure none

theorem appends_ofValue (v : Value) : (ofValue v).Appends := by
  unfold ofValue
  dsimp only
  split
  · exact appends_pure _
  · exact appends_throw _

theorem appends_load : (load stack d root).Appends := by
  refine (appends_ofOwnFile stack d root).bind fun own => ?_
  split
  · exact appends_ofValue _
  · refine (appends_ofPackageFile stack d root).bind fun package => ?_
    split
    · exact appends_ofValue _
    · exact appends_pure _

end Settings

namespace Project

variable (parse : String → Node) (stack : Stack) (d : Disk)

theorem appends_nameOf (root : Path) : (nameOf stack d root).Appends := by
  unfold nameOf
  refine (appends_access _).bind fun found => .ite (appends_pure _) ?_
  split
  · exact appends_pure _
  · refine .ite ((appends_throw _).bind fun _ => ?_) ?_
    all_goals
      split
      · exact appends_pure _
      · split <;> exact appends_pure _

theorem appends_title (root : Path) (name : Option String) : (title stack d root name).Appends := by
  unfold title
  split
  · exact appends_nameOf stack d root
  · exact appends_nameOf stack d root
  · exact appends_pure _

theorem appends_scan (s : Settings) (root : Path) : (scan stack d s root).Appends := by
  unfold scan
  dsimp only
  split
  · exact appends_pure _
  · exact appends_pure _
  · exact appends_throw _

theorem appends_finish (walk : Walk) : (finish walk).Appends := by
  unfold finish
  split
  · exact appends_pure _
  · exact (appends_report _).bind fun _ => appends_throw _

theorem appends_readFile (m : ModuleMap) (file : Path) : (readFile parse d m file).Appends := by
  unfold readFile
  split
  · exact (appends_report _).bind fun _ => appends_throw _
  · refine (appends_report _).bind fun _ => ?_
    split
    · exact appends_pure m
    · exact (appends_report _).bind fun _ => appends_pure _

theorem appends_extract (s : Settings) (root : Path) : (extract parse stack d s root).Appends :=
  (appends_scan stack d s root).bind fun walk =>
    (Appends.foldlM (appends_readFile parse d) walk.files .empty).bind fun _ =>
      (appends_finish walk).bind fun _ => (appends_report _).bind fun _ => appends_pure _

theorem result_linked (s : Settings) (title : Value) (root : Path) (before : List Notice) :
    let work : Reporting Project := do
      report before
      let modules ← extract parse stack d s root
      report [modules.linkNotice]
      return ⟨title, root, modules.link⟩
    work.Appends ∧ work.result.1 =
      (extract parse stack d s root).result.1.map fun modules => ⟨title, root, modules.link⟩ := by
  have hlast : ∀ modules : ModuleMap, (report [modules.linkNotice] >>= fun _ =>
      (pure ⟨title, root, modules.link⟩ : Reporting Project)).Appends :=
    fun modules => (appends_report _).bind fun _ => appends_pure _
  have hextract := (appends_extract parse stack d s root).bind hlast
  refine ⟨(appends_report before).bind fun _ => hextract, ?_⟩
  rw [fst_result_bind fun _ => hextract]
  show (extract parse stack d s root >>= _).result.1 = _
  rw [fst_result_bind hlast]
  cases (extract parse stack d s root).result.1 <;> rfl

/-- The analysis of a project only ever adds to what was reported before. -/
theorem appends_analyze (path : Path) (name : Option String) :
    (analyze parse stack d path name).Appends := by
  unfold analyze
  cases d.resolve? path with
  | none => exact appends_throw _
  | some root =>
    have hlinked := fun settings title =>
      (result_linked parse stack d settings title root [.projectFound title.message root.text]).1
    refine (appends_access _).bind fun isDirectory => ?_
    refine .ite ((Settings.appends_load stack d root).bind fun settings => ?_)
      ((appends_pure _).bind fun settings => ?_)
    all_goals
      refine (appends_title stack d root name).bind fun title => ?_
      refine .ite ((appends_throw _).bind fun _ => ?_) ?_
      all_goals
        exact .ite ((appends_throw _).bind fun _ => hlinked settings title) (hlinked settings title)

variable {parse stack d}

theorem result_analyze {path root : Path} (name : Option String)
    (hroot : d.resolve? path = some root) (hdirectory : d.isDirectory root = .ok true) :
    (analyze parse stack d path name).result.1 =
      (Settings.load stack d root).result.1 >>= fun settings =>
        (title stack d root name).result.1 >>= fun title =>
          if settings.exclude.all (·.isAtomic) then
            (extract parse stack d settings root).result.1.map fun modules =>
              ⟨title, root, modules.link⟩
          else .error .wrongType := by
  have hlinked := fun settings title =>
    result_linked parse stack d settings title root [.projectFound title.message root.text]
  have hchecked := fun settings title => Appends.ite (c := !settings.exclude.all (·.isAtomic))
    ((appends_throw .wrongType).bind fun _ : PUnit => (hlinked settings title).1)
    (hlinked settings title).1
  simp only [analyze, hroot, hdirectory, access, pure_bind, if_true, Bool.not_true,
    Bool.false_eq_true, if_false]
  rw [fst_result_bind fun settings => (appends_title stack d root name).bind (hchecked settings)]
  congr 1
  funext settings
  rw [fst_result_bind (hchecked settings)]
  congr 1
  funext title
  by_cases hall : settings.exclude.all (·.isAtomic) = true
  · simp only [hall, Bool.not_true, Bool.false_eq_true, if_true, if_false]
    exact (hlinked settings title).2
  · simp only [hall, Bool.not_false, Bool.false_eq_true, if_true, if_false]
    rfl

theorem isDirectory_of_result_analyze {path : Path} {name : Option String} {project : Project}
    (h : (analyze parse stack d path name).result.1 = .ok project) :
    ∃ root, d.resolve? path = some root ∧ d.isDirectory root = .ok true := by
  cases hroot : d.resolve? path with
  | none =>
    rw [analyze, hroot] at h
    cases h
  | some root =>
    refine ⟨root, rfl, ?_⟩
    cases hdirectory : d.isDirectory root with
    | error e =>
      simp only [analyze, hroot, hdirectory] at h
      cases h
    | ok isDirectory =>
      cases isDirectory with
      | true => rfl
      | false =>
        simp only [analyze, hroot, hdirectory, access, pure_bind, Bool.false_eq_true, if_false] at h
        rw [result, run_bind] at h
        split at h
        · cases h
        · cases h

theorem exists_extract_of_analyze {path : Path} {name : Option String} {project : Project}
    (h : (analyze parse stack d path name).result.1 = .ok project) :
    ∃ settings modules, (Settings.load stack d project.root).result.1 = .ok settings ∧
      (extract parse stack d settings project.root).result.1 = .ok modules ∧
      project.modules = modules.link := by
  obtain ⟨root, hroot, hdirectory⟩ := isDirectory_of_result_analyze h
  rw [result_analyze name hroot hdirectory] at h
  obtain ⟨settings, hsettings, h⟩ := bind_eq_ok.mp h
  obtain ⟨title, -, h⟩ := bind_eq_ok.mp h
  split at h
  · obtain ⟨modules, hmodules, rfl⟩ := map_eq_ok.mp h
    exact ⟨settings, modules, hsettings, hmodules, rfl⟩
  · simp at h

end Project

end ModuleGraph
