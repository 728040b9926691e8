import ModuleGraph.Delivery
import ModuleGraph.Proofs.AnalysedGraph
import ModuleGraph.Proofs.MadeDirectory

/-! What an output file holds after a request. It is the text that the request answers, unless
the file that the image is drawn to is the same one. -/

namespace ModuleGraph

namespace Outcome

/-- The image that a program draws of the DOT file at a path, if there is one that does. -/
def drawn? (painter : Option Painter) (p : Path) : Option (List UInt8) :=
  match painter with
  | none => none
  | some paint =>
    match paint ["-Tpng", p.text, "-o", (p.withSuffix ".png").text] with
    | .complaint _ => none
    | .image content => some content

section Draw

variable {d : Disk} {painter : Option Painter} {p : Path} {content image : List UInt8}

theorem draw_of_none (h : drawn? painter p = none) : (draw d painter p).1 = d := by
  cases painter with
  | none => rfl
  | some paint =>
    rw [drawn?] at h
    rw [draw]
    cases hpaint : paint ["-Tpng", p.text, "-o", (p.withSuffix ".png").text] with
    | complaint text => rfl
    | image content =>
      rw [hpaint] at h
      cases h

theorem draw_of_some (h : drawn? painter p = some image) : (draw d painter p).1 =
    match d.write (p.withSuffix ".png") image with
    | .ok d' => d'
    | .error _ => d := by
  cases painter with
  | none => cases h
  | some paint =>
    rw [drawn?] at h
    rw [draw]
    cases hpaint : paint ["-Tpng", p.text, "-o", (p.withSuffix ".png").text] with
    | complaint text =>
      rw [hpaint] at h
      cases h
    | image content =>
      rw [hpaint] at h
      obtain rfl := Option.some.inj h
      dsimp only
      cases d.write (p.withSuffix ".png") content <;> rfl

/-- A drawn image goes over the file that it is drawn of if it is drawn to this file, and leaves
it alone otherwise. -/
theorem hasFile_draw (painter : Option Painter) (hfile : d.HasFile p content) :
    (∀ image, drawn? painter p = some image → d.refusal .write (p.withSuffix ".png") = none →
      (draw d painter p).1.SameFile p (p.withSuffix ".png") →
        (draw d painter p).1.HasFile p image) ∧
    ((∀ image, drawn? painter p = some image → d.refusal .write (p.withSuffix ".png") = none →
      ¬ (draw d painter p).1.SameFile p (p.withSuffix ".png")) →
        (draw d painter p).1.HasFile p content) := by
  cases hdrawn : drawn? painter p with
  | none =>
    rw [draw_of_none hdrawn]
    exact ⟨fun image h => (nomatch h), fun _ => hfile⟩
  | some image =>
    rw [draw_of_some hdrawn]
    cases hwrite : d.write (p.withSuffix ".png") image with
    | error e =>
      refine ⟨fun _ _ hgranted hsame => ?_, fun _ => hfile⟩
      obtain ⟨target, old, -, hold⟩ := hsame
      obtain ⟨d', hd'⟩ := Disk.exists_write_of_locate image hgranted hold
      rw [hwrite] at hd'
      cases hd'
    | ok d' =>
      obtain ⟨hover, hapart⟩ := Disk.hasFile_write_other hwrite hfile
      refine ⟨fun other hother _ hsame => ?_, fun h => hapart ?_⟩
      · obtain rfl := Option.some.inj hother
        exact hover hsame
      · exact h image rfl (Disk.placed_of_write hwrite).1

end Draw

theorem save_eq_ok {stack : Stack} {d : Disk} {painter : Option Painter} {format : Format}
    {p : Path} {text answer : String}
    (h : (save stack d painter format p text).result = .ok answer) :
    answer = text ∧ ∃ d',
      (d.ensureDirectory stack.parents p.parent).1.write p (Utf8.encode text) = .ok d' ∧
      (save stack d painter format p text).disk =
        if format = .dot then (draw d' painter p).1 else d' := by
  rw [save] at h ⊢
  generalize d.ensureDirectory stack.parents p.parent = prepared at h ⊢
  obtain ⟨made, _ | e⟩ := prepared
  · dsimp only at h ⊢
    cases hwrite : made.write p (Utf8.encode text) with
    | error e =>
      rw [hwrite] at h
      cases h
    | ok d' =>
      rw [hwrite] at h
      refine ⟨?_, d', rfl, ?_⟩
      · cases format <;> exact (Except.ok.inj h).symm
      · cases format <;> rfl
  · cases h

end Outcome

namespace Request

variable {parse : String → Node} {stack : Stack} {d : Disk} {painter : Option Painter}
variable {r : Request} {p : Path} {text : String}

theorem run_of_analyze {project : Project}
    (h : (Project.analyze parse stack d r.path r.name).result.1 = .ok project)
    (hp : r.output = some p) :
    (r.run parse stack d painter).result = (Outcome.save stack d painter
      (Format.ofRequest r.format) p (project.modules.render (Format.ofRequest r.format))).result ∧
    (r.run parse stack d painter).disk = (Outcome.save stack d painter
      (Format.ofRequest r.format) p (project.modules.render (Format.ofRequest r.format))).disk := by
  rw [run]
  generalize (Project.analyze parse stack d r.path r.name).result = analysed at h ⊢
  obtain ⟨_ | found, notices⟩ := analysed
  · cases h
  · obtain rfl := Except.ok.inj h
    rw [hp]
    exact ⟨rfl, rfl⟩

theorem exists_analyze (h : (r.run parse stack d painter).result = .ok text) :
    ∃ project, (Project.analyze parse stack d r.path r.name).result.1 = .ok project := by
  rw [run] at h
  generalize (Project.analyze parse stack d r.path r.name).result = analysed at h ⊢
  obtain ⟨_ | project, notices⟩ := analysed
  · cases h
  · exact ⟨project, rfl⟩

/-- A request with an output path saves the text that it answers. -/
theorem disk_run (hp : r.output = some p) (h : (r.run parse stack d painter).result = .ok text) :
    ∃ d', d'.HasFile p (Utf8.encode text) ∧ d'.refusal = d.refusal ∧
      (r.run parse stack d painter).disk =
        if Format.ofRequest r.format = .dot then (Outcome.draw d' painter p).1 else d' := by
  obtain ⟨project, hproject⟩ := exists_analyze h
  obtain ⟨hresult, hdisk⟩ := @run_of_analyze parse stack d painter r p project hproject hp
  rw [hresult] at h
  obtain ⟨rfl, d', hwrite, hsaved⟩ := Outcome.save_eq_ok h
  obtain ⟨-, place, -, hplaced⟩ := Disk.placed_of_write hwrite
  have hmade := (d.keepsLeaves_ensureDirectory stack.parents p.parent).refusal
  exact ⟨d', Disk.hasFile_write hwrite, hplaced.refusal.trans hmade, hdisk.trans hsaved⟩

/-- After a request the file at the output path holds the answered text, in UTF-8, unless an
image other than this text is drawn, and may be written, to a path that leads to the same file. This
holds whatever parses the project. -/
theorem hasFile_run_iff (hp : r.output = some p)
    (h : (r.run parse stack d painter).result = .ok text) :
    (r.run parse stack d painter).disk.HasFile p (Utf8.encode text) ↔
      (Format.ofRequest r.format = .dot → ∀ image, Outcome.drawn? painter p = some image →
        d.refusal .write (p.withSuffix ".png") = none →
        (r.run parse stack d painter).disk.SameFile p (p.withSuffix ".png") →
          image = Utf8.encode text) := by
  obtain ⟨d', hfile, hrefusal, hdisk⟩ := disk_run hp h
  rw [hdisk, ← hrefusal]
  by_cases hdot : Format.ofRequest r.format = .dot
  case neg =>
    rw [if_neg hdot]
    exact ⟨fun _ h => absurd h hdot, fun _ => hfile⟩
  rw [if_pos hdot]
  obtain ⟨hover, hapart⟩ := Outcome.hasFile_draw painter hfile
  constructor
  · intro hheld _ image himage hgranted hsame
    exact (hover image himage hgranted hsame).unique hheld
  · intro hsame
    by_cases hdrawn : ∃ image, Outcome.drawn? painter p = some image ∧
        d'.refusal .write (p.withSuffix ".png") = none ∧
        (Outcome.draw d' painter p).1.SameFile p (p.withSuffix ".png")
    · obtain ⟨image, himage, hgranted, hsamefile⟩ := hdrawn
      have hheld := hover image himage hgranted hsamefile
      rwa [hsame hdot image himage hgranted hsamefile] at hheld
    · exact hapart fun image himage hgranted hsamefile =>
        hdrawn ⟨image, himage, hgranted, hsamefile⟩

end Request

namespace Project

/-- A program whose images are no more than the signature of their format. -/
def signature : Painter :=
  fun _ => .image [137, 80, 78, 71]

def importingRequest (output : Path) : Request where
  path := importingRoot
  format := some "dot"
  output := some output

def importingText : String :=
  importingModules.link.renderDot

theorem format_importingRequest (p : Path) :
    Format.ofRequest (importingRequest p).format = .dot := by
  change Format.ofRequest (some "dot") = .dot
  decide +kernel

theorem run_importing (p : Path) :
    ((importingRequest p).run TypeScript.parse .usual importing (some signature)).result =
      (Outcome.save .usual importing (some signature) .dot p importingText).result ∧
    ((importingRequest p).run TypeScript.parse .usual importing (some signature)).disk =
      (Outcome.save .usual importing (some signature) .dot p importingText).disk := by
  have hrun := @Request.run_of_analyze TypeScript.parse .usual importing (some signature)
    (importingRequest p) p _ analyze_importing rfl
  rw [format_importingRequest] at hrun
  exact hrun

theorem hasFile_run_importing :
    let outcome := (importingRequest ⟨"/", ["g.dot"]⟩).run TypeScript.parse .usual importing
      (some signature)
    outcome.result = .ok importingText ∧
      outcome.disk.HasFile ⟨"/", ["g.dot"]⟩ (Utf8.encode importingText) := by
  obtain ⟨hresult, hdisk⟩ := run_importing ⟨"/", ["g.dot"]⟩
  refine ⟨hresult, (Request.hasFile_run_iff rfl hresult).mpr fun _ image _ _ hsame => ?_⟩
  obtain ⟨place, content, htext, himage⟩ := hsame
  rw [hdisk] at htext himage
  have htext : ["g.dot"] = place := (Located.node.inj (Except.ok.inj htext)).1
  have himage : ["g.png"] = place := (Located.node.inj (Except.ok.inj himage)).1
  exact absurd (htext.trans himage.symm) (by decide)

end Project

theorem Path.withSuffix_eq_self {p : Path} {name : String} (hname : name ≠ "")
    (hp : p.name = name ++ ".png") : p.withSuffix ".png" = p := by
  have hstem : Path.stem (name ++ ".png") = name := by
    obtain ⟨c, before, hrev⟩ : ∃ c before, name.toList.reverse = c :: before :=
      List.exists_cons_of_ne_nil (by simpa using hname)
    have hpng : (name ++ ".png").toList.reverse = 'g' :: 'n' :: 'p' :: '.' :: c :: before := by
      simp [hrev]
    rw [Path.stem, hpng]
    change String.ofList (c :: before).reverse = name
    rw [← hrev, List.reverse_reverse, String.ofList_toList]
  have hparts : p.parts.dropLast ++ [p.name] = p.parts := by
    cases hlast : p.parts using List.reverseRecOn with
    | nil => simp [Path.name, hlast] at hp
    | append_singleton above last => simp [Path.name, hlast]
  rw [Path.withSuffix, hp, hstem, ← hp, hparts]

/-- An image that is drawn of a file whose name ends in the suffix of images takes the place of
the text. -/
theorem Request.hasFile_run_png {parse : String → Node} {stack : Stack} {d : Disk}
    {painter : Option Painter} {r : Request} {p : Path} {text name : String} {image : List UInt8}
    (hp : r.output = some p) (h : (r.run parse stack d painter).result = .ok text)
    (hdot : Format.ofRequest r.format = .dot) (hname : name ≠ "") (hpng : p.name = name ++ ".png")
    (himage : Outcome.drawn? painter p = some image) (hgranted : d.refusal .write p = none) :
    (r.run parse stack d painter).disk.HasFile p image := by
  obtain ⟨d', ⟨place, hlocate⟩, hrefusal, hdisk⟩ := Request.disk_run hp h
  obtain ⟨d'', hwrite⟩ := Disk.exists_write_of_locate image (hrefusal ▸ hgranted) hlocate
  rw [hdisk, if_pos hdot, Outcome.draw_of_some himage, Path.withSuffix_eq_self hname hpng, hwrite]
  exact Disk.hasFile_write hwrite

namespace Project

/-- The image has taken the place of the text, which is another one. -/
theorem hasFile_run_overwritten :
    let outcome := (importingRequest ⟨"/", ["g.png"]⟩).run TypeScript.parse .usual importing
      (some signature)
    outcome.result = .ok importingText ∧
      outcome.disk.HasFile ⟨"/", ["g.png"]⟩ [137, 80, 78, 71] ∧
      ¬ outcome.disk.HasFile ⟨"/", ["g.png"]⟩ (Utf8.encode importingText) := by
  obtain ⟨hresult, -⟩ := run_importing ⟨"/", ["g.png"]⟩
  have hname : (⟨"/", ["g.png"]⟩ : Path).name = "g" ++ ".png" := by decide
  have himage := Request.hasFile_run_png rfl hresult (format_importingRequest _) (by decide) hname
    rfl rfl
  have hother : Utf8.encode importingText ≠ [137, 80, 78, 71] := by decide +kernel
  exact ⟨hresult, himage, fun htext => hother (himage.unique htext).symm⟩

end Project

end ModuleGraph
