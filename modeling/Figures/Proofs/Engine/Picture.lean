import Figures.Proofs.Blueprint.Drawing
import Figures.Proofs.Engine.Dispatch
import Figures.Proofs.Except
import Figures.Proofs.Figure.Scenes
import Figures.Proofs.Markup.Outline
import Figures.Proofs.Palette
import Figures.Proofs.Template.Registered

/-!
# The pictures of requests

* `Image.Reasoned`          an image without a picture, but with a warning
* `Image.HasDocument`       an image whose picture is read as one document
* `Gallery.get?_standard`   the standard gallery holds the templates of the kinds of figures
* `Engine.scene?`           the scene of a request
* `Engine.svg_render`       the picture of a request is that of its scene
* `Engine.render_document`  whatever is asked for, the image is the one or the other
-/

namespace Figures

open Markup

/-- an image without a picture, but with a warning -/
def Image.Reasoned (image : Image) : Prop :=
  image.svg = "" ∧ image.width = 0.0 ∧ image.height = 0.0 ∧ image.warnings ≠ []

/-- an image whose picture is read as one document, of which the marks leave out nothing -/
def Image.HasDocument (image : Image) : Prop :=
  ∃ marks, read? image.svg = some marks ∧ marks.flatMap Mark.text = image.svg.toList ∧
    IsDocument marks

theorem Image.reasoned_blank {warnings : List String} (h : warnings ≠ []) :
    (blank warnings).Reasoned := ⟨rfl, rfl, rfl, h⟩

theorem Scene.hasDocument_image {s : Scene} (h : s.Styled) {ctx : Context}
    (hplain : ctx.palette.Plain) : (s.image ctx).HasDocument := by
  have hblock := Palette.plain_styleBlock hplain
  have hstyles : ∀ rules ∈ [ctx.palette.styleBlock], '<' ∉ rules.toList ∧ '&' ∉ rules.toList :=
    List.forall_mem_singleton.mpr ⟨hblock.not_mem rfl, hblock.not_mem rfl⟩
  obtain ⟨marks, hread, hdocument⟩ := isDocument_document ctx.layout s.width s.height hstyles
    ((Drawn.group h s.root).sound (fun _ h => h) fun _ h => h)
  exact ⟨marks, hread, text_of_read hread, hdocument⟩

theorem Scene.svg_ne_empty (s : Scene) (ctx : Context) : (s.image ctx).svg ≠ "" :=
  document_ne_empty _ _ _ _ _

theorem Gallery.get?_standard {id : String} {t : Template} (h : standard.get? id = some t) :
    ∃ k : FigureKind, t = k.template ∧ k.templateId = id := by
  obtain ⟨hmem, hid⟩ := mem_of_get?_ofList h
  obtain ⟨k, _, rfl⟩ := List.mem_map.mp hmem
  exact ⟨k, rfl, hid⟩

namespace Engine

variable {e : Engine}

theorem kind_of_resolve (hgallery : e.gallery = .standard) {r : Request} {t : Template}
    (h : e.resolve r = .ok t) : ∃ k : FigureKind, t = k.template := by
  unfold resolve at h
  split at h
  · cases h
  · split at h
    · cases h
    · split at h
      · cases h
      · rename_i u hget
        cases h
        rw [hgallery] at hget
        obtain ⟨k, hk, -⟩ := Gallery.get?_standard hget
        exact ⟨k, hk⟩

/-- the scene of a request: that of its blueprint or, behind a check without errors, that of the
kind of figures its template draws -/
def scene? (e : Engine) (r : Request) : Option Scene :=
  if r.usesBlueprint then r.custom.map fun b => b.scene ⟨r.params.scope⟩ (Pen.of e.context)
  else if (e.validate r).ok then
    (r.template?.bind FigureKind.ofTemplateId?).bind fun k =>
      (k.scene (e.settled k.template r.params) (Pen.of e.context)).toOption
  else none

theorem scene?_of_validate (hgallery : e.gallery = .standard) {r : Request} {k : FigureKind}
    (hresolve : e.resolve r = .ok k.template) (hvalid : (e.validate r).ok = true) :
    e.scene? r = (k.scene (e.settled k.template r.params) (Pen.of e.context)).toOption := by
  obtain ⟨-, id, hid, hget⟩ := resolve_eq_ok_iff.mp hresolve
  rw [hgallery] at hget
  obtain rfl : k.template.id = id := (Gallery.mem_of_get?_ofList hget).2
  have hkind : FigureKind.ofTemplateId? k.template.id = some k := by cases k <;> decide
  simp [scene?, usesBlueprint_of_resolve hresolve, hvalid, hid, hkind]

/-- over the kinds of figures, the picture of a request is that of its scene; a request without a
scene has none -/
theorem svg_render (hgallery : e.gallery = .standard) (r : Request) :
    (e.render r).svg = ((e.scene? r).map fun s => (s.image e.context).svg).getD "" := by
  cases hblueprint : r.usesBlueprint with
  | true =>
    rw [render, scene?, if_pos hblueprint, if_pos hblueprint, renderBlueprint]
    cases r.custom with
    | none => rfl
    | some b => exact congrArg Image.svg (Blueprint.image_eq b _ _)
  | false =>
    cases hvalid : (e.validate r).ok with
    | false =>
      rw [render_of_errors hvalid, scene?, hblueprint, hvalid]
      rfl
    | true =>
      obtain ⟨t, hresolve⟩ := exists_resolve_of_validate hvalid hblueprint
      obtain ⟨k, rfl⟩ := kind_of_resolve hgallery hresolve
      rw [render_of_validate hresolve hvalid, scene?_of_validate hgallery hresolve hvalid,
        k.draw_template]
      cases k.scene (e.settled k.template r.params) (Pen.of e.context) <;> rfl

theorem finish_document (hplain : e.context.palette.Plain) (k : FigureKind) (p : Params)
    (warnings : List String) :
    (finish warnings (k.template.draw p e.context)).Reasoned ∨
      (finish warnings (k.template.draw p e.context)).HasDocument := by
  cases hdraw : k.template.draw p e.context with
  | drawn image =>
    obtain ⟨s, hs, rfl⟩ := FigureKind.styled_of_draw hdraw
    exact .inr (Scene.hasDocument_image hs hplain)
  | failed err => exact .inl (Image.reasoned_blank (List.append_ne_nil_of_right_ne_nil _ (by simp)))
  | aborted reason =>
    exact .inl (Image.reasoned_blank (List.append_ne_nil_of_right_ne_nil _ (by simp)))

theorem renderTemplate_document (hplain : e.context.palette.Plain) (k : FigureKind) (p : Params) :
    (e.renderTemplate k.template p).Reasoned ∨ (e.renderTemplate k.template p).HasDocument := by
  unfold renderTemplate
  dsimp only
  split
  · exact finish_document hplain k _ _
  · rename_i hok
    refine .inl (Image.reasoned_blank (List.append_ne_nil_of_right_ne_nil _ fun hnone => hok ?_))
    rw [Diagnosis.ok, hnone]
    rfl

theorem renderBlueprint_document (hplain : e.context.palette.Plain) (r : Request) :
    (e.renderBlueprint r).Reasoned ∨ (e.renderBlueprint r).HasDocument := by
  unfold renderBlueprint
  split
  · exact .inl (Image.reasoned_blank (by simp))
  · rename_i b _
    rw [Blueprint.image_eq]
    exact .inr (Scene.hasDocument_image (b.drawn_scene _ _) hplain)

/-- over the kinds of figures, and with a palette whose tokens hold no markup, every request is
answered with a reason or with one document -/
theorem render_document (e : Engine) (hgallery : e.gallery = .standard)
    (hplain : e.context.palette.Plain) (r : Request) :
    (e.render r).Reasoned ∨ (e.render r).HasDocument := by
  unfold render
  split
  · exact renderBlueprint_document hplain r
  · split
    · exact .inl (Image.reasoned_blank (by simp))
    · rename_i t ht
      obtain ⟨k, rfl⟩ := kind_of_resolve hgallery ht
      exact renderTemplate_document hplain k r.params

theorem render_document_circle :
    (({} : Engine).gallery = .standard ∧ ({} : Engine).context.palette.Plain) ∧
      (({} : Engine).render (.ofTemplate "math.geometry.circle.v1")).HasDocument := by
  refine ⟨⟨rfl, Palette.plain_standard⟩,
    (render_document {} rfl Palette.plain_standard _).resolve_left fun ⟨hnone, _⟩ => ?_⟩
  have hresolve : resolve {} (.ofTemplate "math.geometry.circle.v1") =
      .ok FigureKind.circle.template := by
    rfl
  have hvalid : (validate {} (.ofTemplate "math.geometry.circle.v1")).ok = true := by decide
  obtain ⟨s, hs⟩ :=
    ok_of_isOk (show (FigureKind.circle.scene (settled {} FigureKind.circle.template {})
    (Pen.of ({} : Engine).context)).isOk = true by decide)
  have hscene : ({} : Engine).scene? (.ofTemplate "math.geometry.circle.v1") = some s :=
    (scene?_of_validate rfl hresolve hvalid).trans (congrArg Except.toOption hs)
  rw [svg_render rfl, hscene, Option.map_some, Option.getD_some] at hnone
  exact s.svg_ne_empty _ hnone

end Engine

end Figures
