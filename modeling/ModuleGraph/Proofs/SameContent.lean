import ModuleGraph.Proofs.LoadedSettings
import ModuleGraph.Proofs.ProjectExtraction

/-! Disks that show the same content at a path. The settings of a project, its name and what its
files declare depend on no more than that. -/

namespace ModuleGraph

/-- Two disks show the same content at a path, if any, and fail alike to look there. -/
structure Disk.SameContent (d d' : Disk) (p : Path) : Prop where
  read : ∀ content, d'.read p = .ok content ↔ d.read p = .ok content
  contains : ∀ e, d'.contains p = .error e ↔ d.contains p = .error e

variable {parse : String → Node} {stack : Stack} {d d' : Disk} {p root : Path}

namespace Disk.SameContent

theorem read_cases (h : d.SameContent d' p) :
    (∃ content, d.read p = .ok content ∧ d'.read p = .ok content) ∨
      ∃ e e', d.read p = .error e ∧ d'.read p = .error e' := by
  cases hread : d.read p with
  | ok content => exact .inl ⟨content, rfl, (h.read content).mpr hread⟩
  | error e =>
    cases hread' : d'.read p with
    | ok content => cases hread.symm.trans ((h.read content).mp hread')
    | error e' => exact .inr ⟨e, e', rfl, rfl⟩

theorem readText_cases (h : d.SameContent d' p) :
    (∃ cs, d.readText p = .ok cs ∧ d'.readText p = .ok cs) ∨
      ∃ cause cause', d.readText p = .error cause ∧ d'.readText p = .error cause' := by
  rcases h.read_cases with ⟨content, hread, hread'⟩ | ⟨e, e', hread, hread'⟩
  · rw [readText, readText, hread, hread']
    dsimp only
    cases Utf8.decode content with
    | error fault => exact .inr ⟨_, _, rfl, rfl⟩
    | ok cs => exact .inl ⟨_, rfl, rfl⟩
  · exact .inr ⟨e.message, e'.message, by rw [readText, hread], by rw [readText, hread']⟩

theorem contains_cases (h : d.SameContent d' p) :
    (∃ e, d.contains p = .error e ∧ d'.contains p = .error e) ∨
      ∃ found found', d.contains p = .ok found ∧ d'.contains p = .ok found' := by
  cases hcontains : d.contains p with
  | error e => exact .inl ⟨e, rfl, (h.contains e).mpr hcontains⟩
  | ok found =>
    cases hcontains' : d'.contains p with
    | error e => cases hcontains.symm.trans ((h.contains e).mp hcontains')
    | ok found' => exact .inr ⟨found, found', rfl, rfl⟩

theorem declared (h : d.SameContent d' p) (found : Option Declaration) :
    Project.declared parse d' p = .ok found ↔ Project.declared parse d p = .ok found := by
  rcases h.read_cases with ⟨content, hread, hread'⟩ | ⟨e, e', hread, hread'⟩
  · rw [Project.declared, Project.declared, readLossy, readLossy, hread, hread']
  · simp [Project.declared, readLossy, hread, hread']

end Disk.SameContent

namespace Settings

theorem result_ofOwnFile_congr (h : d.SameContent d' (root.child fileName)) :
    (ofOwnFile stack d' root).result.1 = (ofOwnFile stack d root).result.1 := by
  rw [result_ofOwnFile, result_ofOwnFile]
  rcases h.contains_cases with ⟨e, hthere, hthere'⟩ | ⟨found, found', hthere, hthere'⟩
  · rw [hthere, hthere']
  rw [hthere, hthere']
  rcases h.read_cases with ⟨content, hread, hread'⟩ | ⟨e, e', hread, hread'⟩
  · rw [hread, hread']
  · rw [hread, hread']

theorem result_ofPackageFile_congr (h : d.SameContent d' (root.child packageName)) :
    (ofPackageFile stack d' root).result.1 = (ofPackageFile stack d root).result.1 := by
  rw [result_ofPackageFile, result_ofPackageFile]
  rcases h.contains_cases with ⟨e, hthere, hthere'⟩ | ⟨found, found', hthere, hthere'⟩
  · rw [hthere, hthere']
  rw [hthere, hthere']
  rcases h.readText_cases with ⟨cs, hread, hread'⟩ | ⟨cause, cause', hread, hread'⟩
  · rw [hread, hread']
  · rw [hread, hread']

theorem result_load_congr (hown : d.SameContent d' (root.child fileName))
    (hpackage : d.SameContent d' (root.child packageName)) :
    (load stack d' root).result.1 = (load stack d root).result.1 := by
  rw [result_load, result_load, result_ofOwnFile_congr hown, result_ofPackageFile_congr hpackage]

end Settings

namespace Project

theorem nameOf_of_unread {cause : String} {found : Bool}
    (hthere : d.contains (root.child Settings.packageName) = .ok found)
    (hread : d.readText (root.child Settings.packageName) = .error cause) :
    nameOf stack d root = pure (.text root.name) := by
  rw [nameOf, hthere, hread]
  cases found <;> rfl

theorem nameOf_congr (h : d.SameContent d' (root.child Settings.packageName)) :
    nameOf stack d' root = nameOf stack d root := by
  rcases h.contains_cases with ⟨e, hthere, hthere'⟩ | ⟨found, found', hthere, hthere'⟩
  · rw [nameOf, nameOf, hthere, hthere']
    rfl
  rcases h.readText_cases with ⟨cs, hread, hread'⟩ | ⟨cause, cause', hread, hread'⟩
  · obtain ⟨content, hcontent⟩ := Disk.readText_eq_ok hread
    obtain ⟨content', hcontent'⟩ := Disk.readText_eq_ok hread'
    obtain rfl := Disk.contains_of_hasFile hcontent hthere
    obtain rfl := Disk.contains_of_hasFile hcontent' hthere'
    rw [nameOf, nameOf, hthere, hthere', hread, hread']
  · rw [nameOf_of_unread hthere hread, nameOf_of_unread hthere' hread']

theorem title_congr (h : d.SameContent d' (root.child Settings.packageName))
    (name : Option String) : title stack d' root name = title stack d root name := by
  unfold title
  rw [nameOf_congr h]

end Project

end ModuleGraph
