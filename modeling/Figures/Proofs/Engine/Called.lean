import Figures.Proofs.Engine.Dispatch
import Figures.Proofs.Param.Merged
import Figures.Proofs.Param.Prepared

/-!
# What drawing functions are called on

* `Engine.withDraw`             the engine with other drawing functions in its templates
* `Engine.Calls e r t q`        a request leads to a call of the drawing function of `t` on `q`
* `Engine.calls_iff`            it does if it passes the check, and on the settled parameters only
* `Engine.prepared_settled`     the settled parameters behind a check can be relied on
* `Engine.prepared_of_calls`    whatever a drawing function is called on can be relied on
* `Engine.canonical_render`     a request gives the same image if its parameters are filled up
                                beforehand, and under the lenient policy also if its switches are
                                settled
-/

namespace Figures

namespace Engine

def withDraw (e : Engine) (draw : Template → Params → Context → Outcome) : Engine :=
  { e with gallery := ⟨e.gallery.templates.mapValues fun _ t => { t with draw := draw t }⟩ }

/-- The request leads to a call of the drawing function of `t` on `q`: whatever functions stand in
the places of those of the gallery, the image is made of the outcome of the one for `t` on `q`. -/
def Calls (e : Engine) (r : Request) (t : Template) (q : Params) : Prop :=
  e.resolve r = .ok t ∧
    ∀ draw, (e.withDraw draw).render r = finish (e.validate r).warnings (draw t q e.context)

variable {e : Engine} {r : Request} {t : Template} {q : Params}

theorem resolve_withDraw (draw : Template → Params → Context → Outcome) (h : e.resolve r = .ok t) :
    (e.withDraw draw).resolve r = .ok { t with draw := draw t } := by
  obtain ⟨hbears, id, hid, hget⟩ := resolve_eq_ok_iff.mp h
  refine resolve_eq_ok_iff.mpr ⟨hbears, id, hid, ?_⟩
  exact (Dict.get?_mapValues _ _ _).trans (congrArg (Option.map _) hget)

theorem validate_withDraw (draw : Template → Params → Context → Outcome)
    (h : e.resolve r = .ok t) :
    (e.withDraw draw).validate r = e.validate r := by
  rw [validate_of_resolve h, validate_of_resolve (resolve_withDraw draw h)]
  rfl

theorem render_withDraw (draw : Template → Params → Context → Outcome)
    (h : e.resolve r = .ok t) (hvalid : (e.validate r).ok = true) :
    (e.withDraw draw).render r
      = finish (e.validate r).warnings (draw t (e.settled t r.params) e.context) := by
  have himage := render_of_validate (resolve_withDraw draw h)
    ((validate_withDraw draw h).symm ▸ hvalid)
  rw [validate_withDraw draw h] at himage
  exact himage

def painted : Image := ⟨"<svg/>", 1.0, 1.0, []⟩

/-- a drawing function is called if the request passes the check, on the settled parameters only -/
theorem calls_iff : e.Calls r t q ↔
    e.resolve r = .ok t ∧ (e.validate r).ok = true ∧ q = e.settled t r.params := by
  refine and_congr_right fun hresolve => ⟨fun hcalls => ?_, ?_⟩
  · have hvalid : (e.validate r).ok = true := by
      -- a request that fails the check has no picture, whatever the functions paint
      by_contra herrors
      have hblank := render_of_errors (e := e.withDraw fun _ _ _ => .drawn painted)
        ((congrArg Diagnosis.ok (validate_withDraw _ hresolve)).trans
          (Bool.not_eq_true _ ▸ herrors))
      exact absurd (congrArg Image.svg (hblank.symm.trans (hcalls _))) (by decide : "" ≠ "<svg/>")
    refine ⟨hvalid, ?_⟩
    -- functions that paint on `q` only must have been called on `q`
    by_contra hne
    classical
    have hspot := hcalls fun _ p _ => if p = q then .drawn painted else .aborted none
    rw [render_withDraw _ hresolve hvalid, if_pos rfl, if_neg (Ne.symm hne)] at hspot
    exact absurd (congrArg Image.svg hspot) (by decide : "" ≠ "<svg/>")
  · rintro ⟨hvalid, rfl⟩ draw
    exact render_withDraw draw hresolve hvalid

/-- behind a check without errors, the settled parameters can be relied on -/
theorem prepared_settled (hok : ((r.params.merge t.schema).check t.schema e.policy).ok = true) :
    Params.Prepared t.schema e.policy r.params (e.settled t r.params) := by
  rw [settled, settle]
  cases hpolicy : e.policy with
  | strict =>
    rw [hpolicy] at hok
    exact ⟨Params.supplied_merge hok, Params.switched_strict hok⟩
  | lenient => exact ⟨(Params.supplied_merge hok).settleFlags, Params.switched_lenient _ _⟩

/-- Whatever parameters a drawing function is called on, under either policy: presets are filled in,
what the caller gave is unchanged, what is required is there and not blank, and the numbers, points
and switches that the schema declares can be read as such. -/
theorem prepared_of_calls (e : Engine) (r : Request) (t : Template) (q : Params)
    (h : e.Calls r t q) : Params.Prepared t.schema e.policy r.params q := by
  obtain ⟨hresolve, hvalid, rfl⟩ := calls_iff.mp h
  rw [validate_of_resolve hresolve] at hvalid
  exact prepared_settled hvalid

/-- a circle whose radius is given as text, with a malformed switch -/
def worded : Request where
  mode := .template
  templateId := some FigureKind.circle.template.id
  params := (({} : Params).withValue "radius" (.text "7.5")).withFlag "showCenter"
    (.malformed .null)

/-- its drawing function is called with the radius as it was given and the switch at its preset -/
theorem prepared_of_calls_worded :
    Calls {} worded FigureKind.circle.template
        (settled {} FigureKind.circle.template worded.params) ∧
      Params.Prepared Circle.schema .lenient worded.params
        (settled {} FigureKind.circle.template worded.params) := by
  have hcalls : Calls {} worded FigureKind.circle.template
      (settled {} FigureKind.circle.template worded.params) :=
    calls_iff.mpr ⟨by rfl, by decide, rfl⟩
  exact ⟨hcalls, prepared_of_calls {} worded _ _ hcalls⟩

/-! ### parameters that are prepared beforehand -/

theorem renderTemplate_merge (e : Engine) (t : Template) (p : Params) :
    e.renderTemplate t (p.merge t.schema) = e.renderTemplate t p := by
  rw [renderTemplate, renderTemplate, prepare, prepare, Params.merge_merge]

theorem renderTemplate_settleFlags (hpolicy : e.policy = .lenient) (p : Params) :
    e.renderTemplate t (p.settleFlags t.schema) = e.renderTemplate t p := by
  have hsettle : ∀ q : Params, e.settle t (q.settleFlags t.schema) = e.settle t q := by
    intro q
    rw [settle, settle, hpolicy]
    exact Params.settleFlags_settleFlags q t.schema
  have hprepare : e.prepare t (p.settleFlags t.schema)
      = ((p.merge t.schema).settleFlags t.schema, (e.prepare t p).2) := by
    rw [prepare, prepare, Params.merge_settleFlags, hpolicy, Params.check_settleFlags]
  rw [renderTemplate, renderTemplate, hprepare]
  dsimp only
  rw [hsettle]
  rfl

/-- Filling up gives every key what the caller gave, or else its preset. To fill up twice, or to
settle twice, changes nothing more, and it does not matter which is done first. So a request with a
template gives the same image if its parameters are filled up beforehand, and under the lenient
policy also if its switches are settled beforehand. -/
theorem canonical_render :
    (∀ (p : Params) (s : Schema), Params.FilledFrom s p (p.merge s) ∧
      (p.merge s).merge s = p.merge s ∧
      (p.settleFlags s).settleFlags s = p.settleFlags s ∧
      (p.settleFlags s).merge s = (p.merge s).settleFlags s) ∧
    ∀ (e : Engine) (r : Request) (t : Template), e.resolve r = .ok t →
      e.render { r with params := r.params.merge t.schema } = e.render r ∧
      (e.policy = .lenient →
        e.render { r with params := r.params.settleFlags t.schema } = e.render r) := by
  refine ⟨fun p s => ⟨p.filledFrom_merge s, p.merge_merge s, p.settleFlags_settleFlags s,
    p.merge_settleFlags s⟩, fun e r t hresolve => ?_⟩
  -- the template of a request does not depend on its parameters
  have hother : ∀ q : Params, e.render { r with params := q } = e.renderTemplate t q :=
    fun q => render_of_resolve (r := { r with params := q }) hresolve
  rw [render_of_resolve hresolve, hother, hother]
  exact ⟨renderTemplate_merge e t r.params, fun hpolicy =>
    renderTemplate_settleFlags hpolicy r.params⟩

/-- a circle with a malformed switch is drawn as it is with the switch at its preset -/
theorem canonical_render_worded :
    resolve {} worded = .ok FigureKind.circle.template ∧ ({} : Engine).policy = .lenient ∧
      render {} { worded with params := worded.params.merge Circle.schema } = render {} worded ∧
      render {} { worded with params := worded.params.settleFlags Circle.schema }
        = render {} worded := by
  have hresolve : resolve {} worded = .ok FigureKind.circle.template := rfl
  obtain ⟨hmerge, hsettle⟩ := canonical_render.2 {} worded _ hresolve
  exact ⟨hresolve, rfl, hmerge, hsettle rfl⟩

end Engine

end Figures
