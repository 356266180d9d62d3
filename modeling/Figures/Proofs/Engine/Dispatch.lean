import Figures.Engine

/-!
# How requests are answered

* `Engine.resolve_eq_ok_iff`    the template of a request stands under its id, and its mode names
                                one
* `Engine.validate_of_resolve`  the diagnosis of a request with a template is that of its parameters
* `Engine.settled`              the parameters that a template gets
* `Engine.render_of_validate`   behind a check without errors, the template is drawn from them
* `Engine.render_of_errors`     behind a check with errors, nothing is drawn
* `Engine.render_agrees`        a request with errors is answered with its diagnosis, any other one
                                for a template with the outcome of drawing behind the warnings of
                                the diagnosis
-/

namespace Figures.Engine

def settled (e : Engine) (t : Template) (p : Params) : Params := e.settle t (p.merge t.schema)

variable {e : Engine} {r : Request} {t : Template} {p : Params}

/-- what a template gets depends on the policy and the schema only -/
theorem settled_congr {e' : Engine} {t' : Template} (hpolicy : e.policy = e'.policy)
    (hschema : t.schema = t'.schema) (p : Params) : e.settled t p = e'.settled t' p := by
  unfold settled settle
  rw [hpolicy, hschema]

theorem renderTemplate_eq : e.renderTemplate t p
    = if ((p.merge t.schema).check t.schema e.policy).ok then
        finish ((p.merge t.schema).check t.schema e.policy).warnings
          (t.draw (e.settled t p) e.context)
      else .blank (((p.merge t.schema).check t.schema e.policy).warnings ++
        ((p.merge t.schema).check t.schema e.policy).errors) := rfl

theorem renderTemplate_of_ok (h : ((p.merge t.schema).check t.schema e.policy).ok = true) :
    e.renderTemplate t p = finish ((p.merge t.schema).check t.schema e.policy).warnings
      (t.draw (e.settled t p) e.context) := renderTemplate_eq.trans (if_pos h)

theorem renderTemplate_of_errors (h : ((p.merge t.schema).check t.schema e.policy).ok = false) :
    e.renderTemplate t p = .blank (((p.merge t.schema).check t.schema e.policy).warnings ++
      ((p.merge t.schema).check t.schema e.policy).errors) :=
  renderTemplate_eq.trans (if_neg (Bool.not_eq_true _ ▸ h))

theorem resolve_eq_ok_iff : e.resolve r = .ok t ↔
    r.mode.bearsTemplate = true ∧ ∃ id, r.template? = some id ∧ e.gallery.get? id = some t := by
  rw [resolve]
  cases hbears : r.mode.bearsTemplate with
  | false => simp
  | true =>
    cases hid : r.template? with
    | none => simp
    | some id => cases hget : e.gallery.get? id <;> simp [hget]

theorem usesBlueprint_of_resolve (h : e.resolve r = .ok t) : r.usesBlueprint = false := by
  obtain ⟨hbears, id, hid, -⟩ := resolve_eq_ok_iff.mp h
  rw [Request.usesBlueprint]
  split
  · rename_i hmode
    rw [hmode] at hbears
    exact absurd hbears nofun
  · rw [hid, Option.isNone_some, Bool.and_false]
  · rfl

theorem validate_of_resolve (h : e.resolve r = .ok t) :
    e.validate r = (r.params.merge t.schema).check t.schema e.policy := by
  rw [validate, usesBlueprint_of_resolve h, h]
  rfl

theorem render_of_resolve [Platform] (h : e.resolve r = .ok t) :
    e.render r = e.renderTemplate t r.params := by
  rw [render, usesBlueprint_of_resolve h, h]
  rfl

/-- behind a check without errors, a figure is drawn from the settled parameters -/
theorem render_of_validate [Platform] (h : e.resolve r = .ok t)
    (hvalid : (e.validate r).ok = true) : e.render r
      = finish (e.validate r).warnings (t.draw (e.settled t r.params) e.context) := by
  rw [validate_of_resolve h] at hvalid ⊢
  rw [render_of_resolve h, renderTemplate_of_ok hvalid]

theorem exists_resolve_of_validate (hvalid : (e.validate r).ok = true)
    (hblueprint : r.usesBlueprint = false) : ∃ t, e.resolve r = .ok t := by
  cases hresolve : e.resolve r with
  | ok t => exact ⟨t, rfl⟩
  | error problem =>
    rw [validate, hblueprint, hresolve] at hvalid
    exact absurd hvalid nofun

/-- behind a check with errors, the image holds nothing but the diagnosis -/
theorem render_of_errors (herrors : (e.validate r).ok = false) :
    e.render r = .blank ((e.validate r).warnings ++ (e.validate r).errors) := by
  cases hblueprint : r.usesBlueprint with
  | true =>
    have hcheck : e.validate r = validateBlueprint r := by rw [validate, hblueprint, if_pos rfl]
    have himage : e.render r = e.renderBlueprint r := by rw [render, hblueprint, if_pos rfl]
    rw [hcheck] at herrors ⊢
    rw [himage, renderBlueprint]
    cases hcustom : r.custom with
    | none =>
      rw [validateBlueprint, hcustom]
      rfl
    | some b =>
      -- a blueprint that is there is drawn, whatever its layers
      rw [validateBlueprint, hcustom] at herrors
      dsimp only at herrors
      split at herrors
      · exact absurd herrors nofun
      · exact absurd herrors nofun
  | false =>
    cases hresolve : e.resolve r with
    | error problem =>
      rw [render, validate, hblueprint, hresolve]
      rfl
    | ok t =>
      rw [validate_of_resolve hresolve] at herrors ⊢
      rw [render_of_resolve hresolve, renderTemplate_of_errors herrors]

/-! ### checking and drawing agree -/

/-- A request is drawn exactly if its diagnosis has no errors. If it has some, the image holds
nothing but the warnings and then the errors. If it has none and asks for a template, the template's
drawing function decides: its image stands behind the warnings, its error or its abort becomes the
one warning behind them. -/
theorem render_agrees (e : Engine) (r : Request) :
    ((e.validate r).ok = false →
      e.render r = .blank ((e.validate r).warnings ++ (e.validate r).errors)) ∧
    ((e.validate r).ok = true → r.usesBlueprint = false →
      ∃ id t, r.template? = some id ∧ e.gallery.get? id = some t ∧
        match t.draw (e.settled t r.params) e.context with
        | .drawn image =>
          (e.render r).svg = image.svg ∧ (e.render r).width = image.width ∧
            (e.render r).height = image.height ∧
            (e.render r).warnings = (e.validate r).warnings ++ image.warnings
        | .failed err =>
          e.render r = .blank ((e.validate r).warnings ++ ["Render error: " ++ err.message])
        | .aborted reason =>
          e.render r = .blank ((e.validate r).warnings ++
            ["Render error: " ++ reason.getD "render function panicked"])) := by
  refine ⟨render_of_errors, fun hvalid hblueprint => ?_⟩
  obtain ⟨t, hresolve⟩ := exists_resolve_of_validate hvalid hblueprint
  obtain ⟨-, id, hid, hget⟩ := resolve_eq_ok_iff.mp hresolve
  refine ⟨id, t, hid, hget, ?_⟩
  rw [render_of_validate hresolve hvalid]
  cases t.draw (e.settled t r.params) e.context with
  | drawn image => exact ⟨rfl, rfl, rfl, rfl⟩
  | failed err => rfl
  | aborted reason => rfl

/-- an engine over one template, which asks for a radius and whose drawing function aborts -/
def halting : Engine where
  gallery := .ofList
    [{ id := "halting", title := "Halting", category := "test"
       schema := ({} : Schema).value "radius" { required := true, max := some 10.0 }
       draw := fun _ _ => .aborted (some "boom") }]

def halted (p : Params) : Request :=
  { mode := .template, templateId := some " halting ", params := p }

def oversize : Params := ({} : Params).withValue "radius" (.number 20.0)

/-- without a radius nothing is drawn, with one the abort stands behind the warning about it -/
theorem render_agrees_halting :
    ((halting.validate (halted {})).ok = false ∧
      halting.render (halted {})
        = .blank
          ((halting.validate (halted {})).warnings ++ (halting.validate (halted {})).errors)) ∧
    ((halting.validate (halted oversize)).ok = true ∧ (halted oversize).usesBlueprint = false ∧
      halting.render (halted oversize)
        = .blank ((halting.validate (halted oversize)).warnings ++ ["Render error: boom"])) := by
  have herrors : (halting.validate (halted {})).ok = false := by decide
  have hvalid : (halting.validate (halted oversize)).ok = true := by decide
  refine ⟨⟨herrors, (render_agrees halting (halted {})).1 herrors⟩, hvalid, rfl, ?_⟩
  obtain ⟨id, t, hid, hget, hdraw⟩ := (render_agrees halting (halted oversize)).2 hvalid rfl
  obtain rfl : "halting" = id := Option.some.inj hid
  obtain rfl := Option.some.inj hget
  exact hdraw

end Figures.Engine
