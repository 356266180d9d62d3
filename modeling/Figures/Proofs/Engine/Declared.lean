import Figures.Proofs.Engine.Dispatch
import Figures.Proofs.Figure.Declared

/-!
# Requests that differ in what a figure does not read

* `Image.SameBut`         images that are the same but for some of their warnings
* `Engine.render_undeclared`   what a figure does not read has no influence on its image, but for
                               the warnings about malformed positions that are not declared
-/

namespace Figures

/-- The images are the same, but for some warnings: `ignored` stand in the one where `ignored'`
stand in the other. -/
structure Image.SameBut (ignored ignored' : List String) (image image' : Image) : Prop where
  svg : image.svg = image'.svg
  width : image.width = image'.width
  height : image.height = image'.height
  warnings : ∃ front back, image.warnings = front ++ ignored ++ back ∧
    image'.warnings = front ++ ignored' ++ back

namespace Image.SameBut

variable {ignored ignored' : List String}

theorem blank (front back : List String) :
    SameBut ignored ignored' (.blank (front ++ ignored ++ back))
      (.blank (front ++ ignored' ++ back)) :=
  ⟨rfl, rfl, rfl, front, back, rfl, rfl⟩

theorem finish (front : List String) (outcome : Outcome) :
    SameBut ignored ignored' (Engine.finish (front ++ ignored) outcome)
      (Engine.finish (front ++ ignored') outcome) := by
  cases outcome with
  | drawn image => exact ⟨rfl, rfl, rfl, front, image.warnings, rfl, rfl⟩
  | failed err => exact blank front _
  | aborted reason => exact blank front _

end Image.SameBut

namespace Engine

variable {e : Engine} {k : FigureKind} {p q : Params}

theorem draw_settled (h : k.Agrees p q) : k.template.draw (e.settled k.template p) e.context
    = k.template.draw (e.settled k.template q) e.context := by
  have hsettled : k.Agrees (e.settled k.template p) (e.settled k.template q) := by
    rw [settled, settled, settle, settle]
    split
    · exact h.merge.settleFlags
    · exact h.merge
  rw [k.draw_template, k.draw_template, FigureKind.scene_congr _ hsettled]

/-- Two requests for a figure whose parameters are the same as far as the figure reads them, at the
keys that its schema declares, and for the coordinate grid in all positions and the labels named
like one, have the same picture of the same size, and the same warnings in the same order but for
those about malformed positions that are not declared. -/
theorem render_undeclared (e : Engine) (k : FigureKind) (r : Request) (q : Params)
    (hresolve : e.resolve r = .ok k.template) (h : k.Agrees r.params q) :
    Image.SameBut (r.params.ignored k.template.schema) (q.ignored k.template.schema)
      (e.render r) (e.render { r with params := q }) := by
  have hother : e.render { r with params := q } = e.renderTemplate k.template q :=
    render_of_resolve (r := { r with params := q }) hresolve
  rw [render_of_resolve hresolve, hother]
  -- both checks find the same at the declared keys, so both requests pass or neither does
  have hchecked : ∀ p : Params, (p.merge k.template.schema).check k.template.schema e.policy
      = ⟨Finding.warnings ((p.merge k.template.schema).declaredFindings k.template.schema e.policy)
          ++ p.ignored k.template.schema,
        Finding.errors ((p.merge k.template.schema).declaredFindings k.template.schema e.policy)⟩ :=
    fun p => by rw [Params.check_eq_declared, Params.ignored_merge]
  have hfound := hchecked r.params
  rw [h.declared.merge.declaredFindings] at hfound
  have hsame : ((r.params.merge k.template.schema).check k.template.schema e.policy).ok
      = ((q.merge k.template.schema).check k.template.schema e.policy).ok := by
    rw [hfound, hchecked q, Diagnosis.ok, Diagnosis.ok]
  cases hok : ((q.merge k.template.schema).check k.template.schema e.policy).ok with
  | true =>
    rw [renderTemplate_of_ok (hsame.trans hok), renderTemplate_of_ok hok, draw_settled h,
      hfound, hchecked q]
    exact .finish _ _
  | false =>
    rw [renderTemplate_of_errors (hsame.trans hok), renderTemplate_of_errors hok,
      hfound, hchecked q]
    exact .blank _ _

def bare : Request where
  mode := .template
  templateId := some FigureKind.circle.template.id
  params := ({} : Params).withValue "radius" (.number 2.0)

/-- the same circle among parameters that no circle reads, one of them a malformed position -/
def cluttered : Params :=
  ((bare.params.withLabel "A" "vertex").withFlag "showGrid" (.known true)).withPosition "P"
    (.malformed .null)

theorem render_undeclared_circle : resolve {} bare = .ok FigureKind.circle.template ∧
    FigureKind.circle.Agrees bare.params cluttered ∧
    Image.SameBut [] ["Position \"P\" is malformed and will be ignored"] (render {} bare)
      (render {} { bare with params := cluttered }) := by
  have hresolve : resolve {} bare = .ok FigureKind.circle.template := rfl
  have hagrees : FigureKind.circle.Agrees bare.params cluttered := by
    refine ⟨⟨fun name hname => ?labels, fun _ _ => rfl, fun name hname => ?visibility, nofun⟩,
      nofun, nofun⟩
    case labels =>
      have hne : name ≠ "A" := fun heq => absurd (heq ▸ hname) (by decide)
      exact ((Dict.get?_insert _ _ _ _).trans (if_neg hne)).symm
    case visibility =>
      have hne : name ≠ "showGrid" := fun heq => absurd (heq ▸ hname) (by decide)
      exact ((Dict.get?_insert _ _ _ _).trans (if_neg hne)).symm
  exact ⟨hresolve, hagrees, render_undeclared {} .circle bare cluttered hresolve hagrees⟩

end Engine

end Figures
