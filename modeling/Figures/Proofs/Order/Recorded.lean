import Figures.Proofs.Figure.Warnings
import Figures.Proofs.Order.Fulfilled
import Figures.Proofs.Param.Policies

/-!
# What the warnings of a record hold

* `Engine.Listed`             a record's warnings: those of the request, those of its parameters
                              twice, those of the image
* `Engine.listed_of_fulfil`   so it is with every order that asks for a template
* `Engine.count_of_fulfil`    how often a finding is reported

The parameters of an order are checked before it is drawn, and once more by the engine that draws
it. The record keeps what either check reports, one behind the other.
-/

namespace Figures

namespace Request

variable {r : Request}

theorem checkSource_of_template (hbears : r.mode.bearsTemplate = true)
    (hblueprint : r.usesBlueprint = false) {id : String} (hid : r.template? = some id) :
    r.checkSource = {} := by
  have hasset : (r.mode == .asset) = false := by
    cases hmode : r.mode with
    | asset =>
      rw [hmode] at hbears
      exact absurd hbears nofun
    | template => rfl
    | auto => rfl
    | custom => rfl
  rw [checkSource, hasset, hblueprint, hid]
  rfl

/-- what is said of the text that stands in for a picture is no finding about its parameters -/
theorem unlike_checkAlt (r : Request) : ∀ w ∈ r.checkAlt.warnings, Unlike w := by
  intro w hw
  rw [checkAlt] at hw
  split at hw
  · obtain rfl := List.mem_singleton.mp hw
    exact unlike_of_opening (by decide)
  · exact absurd hw List.not_mem_nil

end Request

/-- texts that are not worded like a finding do not count among its reports -/
theorem count_of_unlike {ws : List String} (h : ∀ w ∈ ws, Unlike w) (f : Finding) :
    ws.count f.message = 0 :=
  List.count_eq_zero.mpr fun hmem => h _ hmem f rfl

namespace Engine

variable {e : Engine} {policy : Policy} {order : Order} {record : Record}

theorem record_of_fulfil (h : e.fulfil policy order = .ok record) :
    ∃ image, e.imageOf order.request = .ok image ∧ record.warnings
      = (e.checkRequest policy order.request).warnings ++ (image.map Image.warnings).getD [] := by
  rw [fulfil] at h
  dsimp only at h
  split at h
  · cases h
  · split at h
    · obtain ⟨image, himage, h⟩ := ok_of_bind h
      cases h
      exact ⟨image, himage, rfl⟩
    · cases h

theorem drawn_of_render {r : Request} {t : Template} (hresolve : e.resolve r = .ok t)
    (hblank : (e.render r).isBlank = false) :
    ∃ image, t.draw (e.settled t r.params) e.context = .drawn image ∧
      (e.render r).warnings = (e.validate r).warnings ++ image.warnings := by
  cases hvalid : (e.validate r).ok with
  | false =>
    rw [render_of_errors hvalid] at hblank
    exact absurd hblank nofun
  | true =>
    rw [render_of_validate hresolve hvalid] at hblank ⊢
    cases hdraw : t.draw (e.settled t r.params) e.context with
    | drawn image => exact ⟨image, rfl, rfl⟩
    | failed err =>
      rw [hdraw] at hblank
      exact absurd hblank nofun
    | aborted reason =>
      rw [hdraw] at hblank
      exact absurd hblank nofun

theorem isBlank_render_of_scene {r : Request} {k : FigureKind}
    (hresolve : e.resolve r = .ok k.template) (hvalid : (e.validate r).ok = true) {s : Scene}
    (hscene : k.scene (e.settled k.template r.params) (Pen.of e.context) = .ok s) :
    (e.render r).isBlank = false := by
  rw [render_of_validate hresolve hvalid, FigureKind.draw_template, hscene]
  exact isBlank_image s e.context

/-- the findings about the parameters of an order for the template `t` -/
def found (policy : Policy) (t : Template) (order : Order) : List String :=
  ((order.request.params.merge t.schema).check t.schema policy).warnings

/-- The warnings of a record of an order for the template `t`: what is said of the request itself,
twice what is found about its parameters, and what the drawn image says. -/
def Listed (e : Engine) (policy : Policy) (t : Template) (order : Order) (record : Record)
    (image : Image) : Prop :=
  t.draw (e.settled t order.request.params) e.context = .drawn image ∧
    record.warnings = order.request.checkAlt.warnings ++ found policy t order ++
      found policy t order ++ image.warnings

theorem listed_of_fulfil {t : Template} (hresolve : e.resolve order.request = .ok t)
    (h : e.fulfil policy order = .ok record) : ∃ image, e.Listed policy t order record image := by
  obtain ⟨hbears, id, hid, -⟩ := resolve_eq_ok_iff.mp hresolve
  obtain ⟨image?, himage, hwarnings⟩ := record_of_fulfil h
  have hchecked : (e.checkRequest policy order.request).warnings
      = order.request.checkAlt.warnings ++ found policy t order := by
    rw [checkRequest_of_resolve hresolve, Request.check,
      Request.checkSource_of_template hbears (usesBlueprint_of_resolve hresolve) hid]
    rfl
  have hmode : order.request.mode ≠ .asset := by
    intro hmode
    rw [hmode] at hbears
    exact absurd hbears nofun
  rw [imageOf_of_mode hmode] at himage
  split at himage
  · cases himage
  · rename_i hblank
    cases himage
    obtain ⟨image, hdraw, hrender⟩ := drawn_of_render hresolve (Bool.not_eq_true _ ▸ hblank)
    have hagain : (e.validate order.request).warnings = found policy t order := by
      rw [validate_of_resolve hresolve, found, Params.warnings_check,
        ← Params.warnings_check _ _ policy]
    refine ⟨image, hdraw, ?_⟩
    rw [hwarnings, hchecked, Option.map_some, Option.getD_some, hrender, hagain]
    exact (List.append_assoc _ _ _).symm

theorem Listed.count {t : Template} {image : Image} (h : e.Listed policy t order record image)
    (f : Finding) : record.warnings.count f.message
      = 2 * (found policy t order).count f.message + image.warnings.count f.message := by
  rw [h.2, List.count_append, List.count_append, List.count_append,
    count_of_unlike order.request.unlike_checkAlt, Nat.zero_add, ← Nat.two_mul]

/-- what the figures say themselves is no finding about their parameters -/
theorem Listed.count_image {t : Template} {image : Image}
    (h : e.Listed policy t order record image) (hgallery : e.gallery = .standard)
    (hresolve : e.resolve order.request = .ok t) (f : Finding) :
    image.warnings.count f.message = 0 := by
  obtain ⟨k, rfl⟩ := kind_of_resolve hgallery hresolve
  exact count_of_unlike (FigureKind.unlike_of_draw _ h.1) f

/-- In the record of an order for a template, a finding about the parameters is reported twice as
often as they have it, besides what the template's own drawing function reports. The figures report
no findings themselves, so over them it is exactly twice as often. -/
theorem count_of_fulfil (e : Engine) (policy : Policy) (order : Order) (t : Template)
    (record : Record) (hresolve : e.resolve order.request = .ok t)
    (h : e.fulfil policy order = .ok record) :
    ∃ image, t.draw (e.settled t order.request.params) e.context = .drawn image ∧
      record.warnings = order.request.checkAlt.warnings ++ found policy t order ++
        found policy t order ++ image.warnings ∧
      (∀ f : Finding, record.warnings.count f.message
        = 2 * (found policy t order).count f.message + image.warnings.count f.message) ∧
      (e.gallery = .standard → ∀ f : Finding,
        record.warnings.count f.message = 2 * (found policy t order).count f.message) := by
  obtain ⟨image, hlisted⟩ := listed_of_fulfil hresolve h
  refine ⟨image, hlisted.1, hlisted.2, hlisted.count, fun hgallery f => ?_⟩
  rw [hlisted.count, hlisted.count_image hgallery hresolve, Nat.add_zero]

def circleOrder (radius : Float) : Order where
  title := "Circle"
  request := { Request.ofTemplate "math.geometry.circle.v1" with
    params := ({} : Params).withValue "radius" (.number radius), alt := some "A circle" }

theorem found_circleOrder : found .strict FigureKind.circle.template (circleOrder 2000.0)
    = [(Finding.valueTooLarge "radius" 2000.0 1000.0).message] := by rfl

theorem resolve_circleOrder :
    ({} : Engine).resolve (circleOrder 2000.0).request = .ok FigureKind.circle.template := by rfl

theorem exists_fulfil_circleOrder :
    ∃ record, ({} : Engine).fulfil .strict (circleOrder 2000.0) = .ok record := by
  have hvalid : (({} : Engine).validate (circleOrder 2000.0).request).ok = true := by decide
  obtain ⟨s, hscene⟩ : ∃ s, FigureKind.circle.scene (({} : Engine).settled
      FigureKind.circle.template (circleOrder 2000.0).request.params) (Pen.of {}) = .ok s := by
    have hradius : (({} : Engine).settled FigureKind.circle.template
        (circleOrder 2000.0).request.params).positive "radius" = .ok 2000.0 := by rfl
    rw [FigureKind.scene, Circle.scene, hradius]
    exact ⟨_, rfl⟩
  have hblank := isBlank_render_of_scene resolve_circleOrder hvalid hscene
  have hok : (({} : Engine).checkRequest .strict (circleOrder 2000.0).request).ok = true := by
    decide
  obtain ⟨record, h, -⟩ := fulfil_of_image (by decide) hok nofun hblank
  exact ⟨record, h⟩

/-- a radius beyond its range is found once and reported twice -/
theorem count_of_fulfil_circle :
    ∃ record, ({} : Engine).resolve (circleOrder 2000.0).request = .ok FigureKind.circle.template ∧
      ({} : Engine).fulfil .strict (circleOrder 2000.0) = .ok record ∧
      record.warnings.count (Finding.valueTooLarge "radius" 2000.0 1000.0).message = 2 := by
  obtain ⟨record, h⟩ := exists_fulfil_circleOrder
  obtain ⟨-, -, -, -, hcount⟩ := count_of_fulfil {} .strict _ _ record resolve_circleOrder h
  refine ⟨record, resolve_circleOrder, h, ?_⟩
  rw [hcount rfl, found_circleOrder, List.count_singleton_self]

/-- not every finding is reported as often as the parameters have it -/
theorem not_count_once : ¬ ∀ (e : Engine) (policy : Policy) (order : Order) (t : Template)
    (record : Record), e.resolve order.request = .ok t → e.fulfil policy order = .ok record →
      ∀ f : Finding, record.warnings.count f.message = (found policy t order).count f.message := by
  intro honce
  obtain ⟨record, h⟩ := exists_fulfil_circleOrder
  obtain ⟨image, hlisted⟩ := listed_of_fulfil resolve_circleOrder h
  have htwice := hlisted.count (.valueTooLarge "radius" 2000.0 1000.0)
  rw [honce _ _ _ _ _ resolve_circleOrder h, found_circleOrder, List.count_singleton_self] at htwice
  omega

end Engine

end Figures
