import Figures.Proofs.Engine.Dispatch
import Figures.Proofs.Engine.Picture
import Figures.Proofs.Markup.Outline

/-!
# One drawing in every layout

* `Engine.laidOut`           the engine with other answers to the two questions of the layout: a
                             declaration in front or not, one line an element or not
* `Image.OneDraft`           images that are blank for one reason, or one draft in its four layouts
* `Engine.render_oneDraft`   the images of a request under the four layouts are of this kind

A pen has no part in the layout, so all four layouts are given the same pieces.
-/

namespace Figures

open Markup

/-- the context with a declaration in front of documents or not, and one line an element or not -/
def Context.laidOut (ctx : Context) (standalone pretty : Bool) : Context :=
  { ctx with layout := { ctx.layout with standalone := standalone, pretty := pretty } }

/-- the engine with a declaration in front of documents or not, and one line an element or not -/
def Engine.laidOut (e : Engine) (standalone pretty : Bool) : Engine :=
  { e with context := e.context.laidOut standalone pretty }

/-- Images, one for every layout: all blank with the same warnings, or all with one size, the same
warnings and the texts of one draft. -/
inductive Image.OneDraft (f : Bool → Bool → Image) : Prop
  | blank (warnings : List String)
      (all : ∀ standalone pretty, f standalone pretty = .blank warnings)
  | drawn (draft : Draft) (places : Nat) (width height : Float) (warnings : List String)
      (root : draft.root = rootStart (tidy places width) (tidy places height))
      (all : ∀ standalone pretty,
        f standalone pretty = ⟨draft.text standalone pretty, width, height, warnings⟩)

theorem Image.OneDraft.withLeading {f : Bool → Bool → Image} (hf : OneDraft f)
    (leading : List String) : OneDraft fun standalone pretty =>
      (f standalone pretty).withLeading leading := by
  cases hf with
  | blank warnings all =>
    exact .blank (leading ++ warnings) fun standalone pretty =>
      congrArg (Image.withLeading · leading) (all standalone pretty)
  | drawn draft places width height warnings root all =>
    exact .drawn draft places width height (leading ++ warnings) root fun standalone pretty =>
      congrArg (Image.withLeading · leading) (all standalone pretty)

theorem Scene.oneDraft_image {s : Scene} (hs : s.Styled) (ctx : Context) :
    Image.OneDraft fun standalone pretty => s.image (ctx.laidOut standalone pretty) := by
  obtain ⟨o, ho⟩ := exists_outline (Drawn.group hs s.root).nested
  refine .drawn ⟨_, Text.lines ctx.palette.styleBlock, o⟩ ctx.layout.places s.width s.height
    s.warnings rfl fun standalone pretty => ?_
  have htext := document_eq_text (ctx.laidOut standalone pretty).layout s.width s.height
    ctx.palette.styleBlock o
  rw [ho] at htext
  exact congrArg (Image.mk · s.width s.height s.warnings) htext

namespace Engine

theorem oneDraft_finish (k : FigureKind) (p : Params) (ctx : Context) (warnings : List String) :
    Image.OneDraft fun standalone pretty =>
      finish warnings (k.template.draw p (ctx.laidOut standalone pretty)) := by
  have hpen : ∀ standalone pretty, Pen.of (ctx.laidOut standalone pretty) = Pen.of ctx :=
    fun _ _ => rfl
  simp only [FigureKind.draw_template, hpen]
  cases hscene : k.scene p (Pen.of ctx) with
  | ok s =>
    exact (s.oneDraft_image (k.draws_scene p (Pen.of ctx) s hscene) ctx).withLeading warnings
  | error err => exact .blank _ fun _ _ => rfl

theorem oneDraft_renderTemplate (e : Engine) (k : FigureKind) (p : Params) :
    Image.OneDraft fun standalone pretty =>
      (e.laidOut standalone pretty).renderTemplate k.template p := by
  generalize hchecked : (p.merge k.template.schema).check k.template.schema e.policy = checked
  have himage : ∀ standalone pretty, (e.laidOut standalone pretty).renderTemplate k.template p
      = if checked.ok then finish checked.warnings
          (k.template.draw (e.settled k.template p) (e.context.laidOut standalone pretty))
        else .blank (checked.warnings ++ checked.errors) := by
    subst hchecked
    exact fun _ _ => rfl
  simp only [himage]
  cases checked.ok with
  | true => exact oneDraft_finish k _ e.context _
  | false => exact .blank _ fun _ _ => rfl

theorem oneDraft_renderBlueprint (e : Engine) (r : Request) :
    Image.OneDraft fun standalone pretty => (e.laidOut standalone pretty).renderBlueprint r := by
  cases hcustom : r.custom with
  | none => exact .blank [noBlueprint] fun _ _ => by rw [renderBlueprint, hcustom]
  | some b =>
    have himage : ∀ standalone pretty, (e.laidOut standalone pretty).renderBlueprint r
        = (b.scene ⟨r.params.scope⟩ (Pen.of e.context)).image
            (e.context.laidOut standalone pretty) := by
      intro standalone pretty
      rw [renderBlueprint, hcustom]
      exact Blueprint.image_eq b _ _
    simp only [himage]
    exact Scene.oneDraft_image (b.drawn_scene _ _) e.context

/-- Over the kinds of figures, the four layouts of an engine answer a request alike: with the same
size and the same warnings, and without a picture or with one sequence of style rules and elements.
The compact documents hold them end to end, the pretty ones each on a line of its own, two blanks in
for every element around it; a standalone document has the declaration in front. -/
theorem render_oneDraft (e : Engine) (hgallery : e.gallery = .standard) (r : Request) :
    Image.OneDraft fun standalone pretty => (e.laidOut standalone pretty).render r := by
  cases hblueprint : r.usesBlueprint with
  | true =>
    have himage : ∀ standalone pretty, (e.laidOut standalone pretty).render r
        = (e.laidOut standalone pretty).renderBlueprint r :=
      fun _ _ => by rw [render, hblueprint, if_pos rfl]
    simp only [himage]
    exact oneDraft_renderBlueprint e r
  | false =>
    have hsame : ∀ standalone pretty, (e.laidOut standalone pretty).resolve r = e.resolve r :=
      fun _ _ => rfl
    cases hresolve : e.resolve r with
    | error problem =>
      refine .blank [problem] fun standalone pretty => ?_
      rw [render, hblueprint, hsame, hresolve]
      rfl
    | ok t =>
      obtain ⟨k, rfl⟩ := kind_of_resolve hgallery hresolve
      have himage : ∀ standalone pretty, (e.laidOut standalone pretty).render r
          = (e.laidOut standalone pretty).renderTemplate k.template r.params :=
        fun standalone pretty => render_of_resolve ((hsame standalone pretty).trans hresolve)
      simp only [himage]
      exact oneDraft_renderTemplate e k r.params

/-- a circle with a radius, asked of the standard engine in its four layouts -/
theorem render_oneDraft_circle : ({} : Engine).gallery = .standard ∧
    Image.OneDraft fun standalone pretty =>
      (({} : Engine).laidOut standalone pretty).render (.ofTemplate "math.geometry.circle.v1") :=
  ⟨rfl, render_oneDraft {} rfl _⟩

end Engine

end Figures
