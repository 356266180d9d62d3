import Figures.Order.Basic
import Figures.Proofs.Engine.Dispatch
import Figures.Proofs.Engine.Picture
import Figures.Proofs.Except
import Figures.Proofs.Param.Checked
import Figures.Proofs.Text.Pieces

/-!
# How orders are answered

* `Params.ok_of_strict`          what the strict policy lets pass passes under every policy
* `Engine.withPolicy`            the engine with another policy
* `Engine.ok_checkRequest`       the check of orders under a policy agrees with that of the engine
                                 with this policy
* `Engine.Fails e r err`         the drawing function of the template of a request fails
* `Engine.fails_of_isBlank`      behind a check without errors, an image is blank only if it does
* `Engine.Accounted e order`     what an order leads to, in terms of the two checks and of drawing
* `Engine.accounted_standard`    over the kinds of figures this holds of all titled orders

What a mode asks for is looked up twice: the check of orders names the member of the request that is
missing, the engine says why there is nothing to draw. The two are compared mode by mode.
-/

namespace Figures

open Markup

theorem Diagnosis.ok_append (a b : Diagnosis) : (a ++ b).ok = (a.ok && b.ok) := by
  show (a.errors ++ b.errors).isEmpty = (a.errors.isEmpty && b.errors.isEmpty)
  rw [Bool.eq_iff_iff, Bool.and_eq_true, List.isEmpty_iff, List.isEmpty_iff, List.isEmpty_iff,
    List.append_eq_nil_iff]

namespace Params

variable {p : Params} {s : Schema} {policy : Policy}

/-- the policy decides about switches only, and the strict one finds the most -/
theorem findings_subset_strict : p.findings s policy ⊆ p.findings s .strict := by
  cases policy with
  | strict => exact fun _ hf => hf
  | lenient =>
    have hflags : s.visibility.entries.flatMap
        (fun e => checkFlag .lenient e.1 (p.visibility.get? e.1)) = [] :=
      List.flatMap_eq_nil_iff.mpr fun _ _ => rfl
    intro f hf
    simp only [findings, hflags, List.mem_append, List.not_mem_nil, or_false] at hf ⊢
    exact hf.imp_left fun h => .inl h

theorem ok_of_strict (hok : (p.check s .strict).ok = true) : (p.check s policy).ok = true :=
  ok_check_iff.mpr fun _ hf => warned_of_check hok (findings_subset_strict hf)

end Params

namespace Request

variable {r : Request}

theorem ok_check (schema : Option Schema) (policy : Policy) :
    (r.check schema policy).ok = (r.checkSource.ok &&
      schema.all fun s => ((r.params.merge s).check s policy).ok) := by
  have halt : r.checkAlt.ok = true := by
    unfold checkAlt
    split <;> rfl
  cases schema with
  | none =>
    show (r.checkSource ++ r.checkAlt).ok = _
    rw [Diagnosis.ok_append, halt]
    rfl
  | some s =>
    show (r.checkSource ++ r.checkAlt ++ (r.params.merge s).check s policy).ok = _
    rw [Diagnosis.ok_append, Diagnosis.ok_append, halt, Bool.and_true]
    rfl

theorem ok_checkBlueprint : r.checkBlueprint.ok = r.custom.isSome := by
  unfold checkBlueprint
  split
  · rename_i hcustom
    rw [hcustom]
    rfl
  · rename_i b hcustom
    rw [hcustom]
    split <;> rfl

theorem ok_checkSource (hdrawn : r.isRenderable = true) :
    r.checkSource.ok = if r.usesBlueprint then r.custom.isSome else r.template?.isSome := by
  have hasset : (r.mode == .asset) = false := by
    rw [isRenderable, bne] at hdrawn
    exact Bool.not_eq_true' _ ▸ hdrawn
  rw [checkSource, hasset, if_neg Bool.false_ne_true]
  cases r.usesBlueprint with
  | true => exact ok_checkBlueprint
  | false =>
    cases htemplate : r.template? with
    | none => simp [Diagnosis.ok, Diagnosis.error]
    | some id => simp [Diagnosis.ok]

theorem bearsTemplate_of_isRenderable (hdrawn : r.isRenderable = true)
    (hblueprint : r.usesBlueprint = false) : r.mode.bearsTemplate = true := by
  cases hmode : r.mode with
  | asset =>
    rw [isRenderable, hmode] at hdrawn
    exact absurd hdrawn (by decide)
  | template => rfl
  | auto => rfl
  | custom =>
    rw [usesBlueprint, hmode] at hblueprint
    exact absurd hblueprint.symm Bool.false_ne_true

end Request

namespace Engine

variable {e : Engine} {r : Request} {policy : Policy}

def withPolicy (e : Engine) (policy : Policy) : Engine := { e with policy := policy }

/-! ### the two checks -/

theorem ok_validateBlueprint : (validateBlueprint r).ok = r.custom.isSome := by
  unfold validateBlueprint
  split
  · rename_i hcustom
    rw [hcustom]
    rfl
  · rename_i b hcustom
    rw [hcustom]
    split <;> rfl

theorem checkRequest_of_blueprint (hblueprint : r.usesBlueprint = true) :
    e.checkRequest policy r = r.check none policy := by
  rw [checkRequest, hblueprint, Bool.or_true, if_pos rfl]

theorem checkRequest_of_resolve {t : Template} (hresolve : e.resolve r = .ok t) :
    e.checkRequest policy r = r.check (some t.schema) policy := by
  obtain ⟨hbears, id, hid, hget⟩ := resolve_eq_ok_iff.mp hresolve
  rw [checkRequest, hbears, usesBlueprint_of_resolve hresolve, hid]
  simp [hget]

/-- a request that should have a template and has none does not pass the check of orders -/
theorem ok_checkRequest_of_error (hdrawn : r.isRenderable = true)
    (hblueprint : r.usesBlueprint = false) {problem : String}
    (hresolve : e.resolve r = .error problem) : (e.checkRequest policy r).ok = false := by
  have hbears := Request.bearsTemplate_of_isRenderable hdrawn hblueprint
  rw [checkRequest, hbears, hblueprint]
  cases htemplate : r.template? with
  | none =>
    have hsource : r.checkSource.ok = false := by
      rw [Request.ok_checkSource hdrawn, hblueprint, htemplate]
      rfl
    show (r.check none policy).ok = false
    rw [Request.ok_check, hsource, Bool.false_and]
  | some id =>
    cases hget : e.gallery.get? id with
    | none =>
      simp only [Bool.not_true, Bool.or_self, Bool.false_eq_true, if_false, hget,
        Diagnosis.ok_append]
      exact Bool.and_false _
    | some t =>
      rw [resolve_eq_ok_iff.mpr ⟨hbears, id, htemplate, hget⟩] at hresolve
      cases hresolve

theorem ok_checkRequest (hdrawn : r.isRenderable = true) :
    (e.checkRequest policy r).ok = ((e.withPolicy policy).validate r).ok := by
  have hsame : (e.withPolicy policy).resolve r = e.resolve r := rfl
  cases hblueprint : r.usesBlueprint with
  | true =>
    rw [checkRequest_of_blueprint hblueprint, Request.ok_check, Request.ok_checkSource hdrawn,
      validate, hblueprint, if_pos rfl, if_pos rfl, ok_validateBlueprint]
    exact Bool.and_true _
  | false =>
    cases hresolve : e.resolve r with
    | error problem =>
      rw [ok_checkRequest_of_error hdrawn hblueprint hresolve, validate, hblueprint,
        hsame, hresolve]
      rfl
    | ok t =>
      obtain ⟨-, id, hid, -⟩ := resolve_eq_ok_iff.mp hresolve
      rw [checkRequest_of_resolve hresolve, validate_of_resolve (hsame.trans hresolve),
        Request.ok_check, Request.ok_checkSource hdrawn, hblueprint, hid]
      rfl

theorem ok_validate_of_strict (hok : ((e.withPolicy .strict).validate r).ok = true) :
    (e.validate r).ok = true := by
  cases hblueprint : r.usesBlueprint with
  | true =>
    rw [validate, hblueprint] at hok ⊢
    exact hok
  | false =>
    obtain ⟨t, hresolve⟩ := exists_resolve_of_validate hok hblueprint
    rw [validate_of_resolve hresolve] at hok
    rw [validate_of_resolve (e := e) hresolve]
    exact Params.ok_of_strict hok

/-! ### images -/

/-- the drawing function of the template of a request fails -/
def Fails (e : Engine) (r : Request) (err : TemplateError) : Prop :=
  ∃ t, e.resolve r = .ok t ∧ t.draw (e.settled t r.params) e.context = .failed err

theorem isBlank_image (s : Scene) (ctx : Context) : (s.image ctx).isBlank = false := by
  rw [Image.isBlank, Bool.eq_false_iff, Ne, String.isEmpty_iff]
  exact s.svg_ne_empty ctx

theorem render_of_fails (hvalid : (e.validate r).ok = true) {err : TemplateError}
    (h : e.Fails r err) :
    e.render r = .blank ((e.validate r).warnings ++ ["Render error: " ++ err.message]) := by
  obtain ⟨t, hresolve, hdraw⟩ := h
  rw [render_of_validate hresolve hvalid, hdraw]
  rfl

/-- behind a check without errors there is a picture, unless the drawing function fails -/
theorem fails_of_isBlank (hgallery : e.gallery = .standard) (hvalid : (e.validate r).ok = true)
    (hblank : (e.render r).isBlank = true) : ∃ err, e.Fails r err := by
  cases hblueprint : r.usesBlueprint with
  | true =>
    exfalso
    cases hcustom : r.custom with
    | none =>
      rw [validate, hblueprint, if_pos rfl, ok_validateBlueprint, hcustom] at hvalid
      exact Bool.false_ne_true hvalid
    | some b =>
      simp only [render, hblueprint, if_true, renderBlueprint, hcustom,
        Blueprint.image_eq] at hblank
      exact Bool.false_ne_true ((isBlank_image _ _).symm.trans hblank)
  | false =>
    obtain ⟨t, hresolve⟩ := exists_resolve_of_validate hvalid hblueprint
    obtain ⟨k, rfl⟩ := kind_of_resolve hgallery hresolve
    rw [render_of_validate hresolve hvalid] at hblank
    cases hdraw : k.template.draw (e.settled k.template r.params) e.context with
    | drawn image =>
      obtain ⟨s, -, rfl⟩ := FigureKind.styled_of_draw hdraw
      rw [hdraw] at hblank
      exact absurd ((isBlank_image s e.context).symm.trans hblank) Bool.false_ne_true
    | failed err => exact ⟨err, k.template, hresolve, hdraw⟩
    | aborted reason =>
      rw [FigureKind.draw_template] at hdraw
      split at hdraw <;> cases hdraw

/-! ### orders -/

variable {order : Order}

theorem fulfil_of_ok (htitle : Text.isBlank order.title = false)
    (hok : (e.checkRequest policy order.request).ok = true) :
    e.fulfil policy order = (e.imageOf order.request).map fun image =>
      ⟨Text.trim order.title, order.request, order.subjectId, order.tags, image,
        (e.checkRequest policy order.request).warnings ++ (image.map Image.warnings).getD []⟩ := by
  rw [← Text.isEmpty_trim] at htitle
  simp only [fulfil, htitle, hok, if_true]
  rfl

theorem fulfil_of_errors (htitle : Text.isBlank order.title = false)
    (herrors : (e.checkRequest policy order.request).ok = false) :
    e.fulfil policy order
      = .error (.invalidRequest (e.checkRequest policy order.request).errors) := by
  rw [← Text.isEmpty_trim] at htitle
  simp only [fulfil, htitle, herrors]
  rfl

theorem imageOf_of_asset (h : r.mode = .asset) : e.imageOf r = .ok none := by
  rw [imageOf, Request.isRenderable, h]
  rfl

theorem imageOf_of_mode (h : r.mode ≠ .asset) : e.imageOf r
    = if (e.render r).isBlank then .error (.renderFailed (e.render r).warnings)
      else .ok (some (e.render r)) := by
  rw [imageOf, Request.isRenderable, bne_iff_ne.mpr h]
  rfl

theorem valid_of_checkRequest (hdrawn : r.isRenderable = true)
    (hok : (e.checkRequest .strict r).ok = true) : (e.validate r).ok = true :=
  ok_validate_of_strict (ok_checkRequest hdrawn ▸ hok)

theorem isRenderable_iff : r.isRenderable = true ↔ r.mode ≠ .asset := bne_iff_ne

theorem Fails.isRenderable {err : TemplateError} (h : e.Fails r err) : r.isRenderable = true := by
  obtain ⟨t, hresolve, -⟩ := h
  obtain ⟨hbears, -⟩ := resolve_eq_ok_iff.mp hresolve
  refine isRenderable_iff.mpr fun hmode => ?_
  rw [hmode] at hbears
  exact absurd hbears nofun

theorem fulfil_of_asset (htitle : Text.isBlank order.title = false)
    (hok : (e.checkRequest policy order.request).ok = true) (hmode : order.request.mode = .asset) :
    ∃ record, e.fulfil policy order = .ok record ∧ record.image = none := by
  rw [fulfil_of_ok htitle hok, imageOf_of_asset hmode]
  exact ⟨_, rfl, rfl⟩

theorem fulfil_of_image (htitle : Text.isBlank order.title = false)
    (hok : (e.checkRequest policy order.request).ok = true) (hmode : order.request.mode ≠ .asset)
    (himage : (e.render order.request).isBlank = false) :
    ∃ record, e.fulfil policy order = .ok record ∧
      record.image = some (e.render order.request) := by
  rw [fulfil_of_ok htitle hok, imageOf_of_mode hmode, himage]
  exact ⟨_, rfl, rfl⟩

theorem fulfil_of_fails (htitle : Text.isBlank order.title = false)
    (hok : (e.checkRequest .strict order.request).ok = true) {err : TemplateError}
    (hfails : e.Fails order.request err) :
    e.fulfil .strict order = .error (.renderFailed
      ((e.validate order.request).warnings ++ ["Render error: " ++ err.message])) := by
  have hdrawn := hfails.isRenderable
  have himage := render_of_fails (valid_of_checkRequest hdrawn hok) hfails
  rw [fulfil_of_ok htitle hok, imageOf_of_mode (isRenderable_iff.mp hdrawn), himage]
  rfl

/-- the answers that a titled order can get -/
inductive Answered (e : Engine) (order : Order) : Prop
  | refused (hok : (e.checkRequest .strict order.request).ok = false)
      (h : e.fulfil .strict order
        = .error (.invalidRequest (e.checkRequest .strict order.request).errors))
  | stored (hok : (e.checkRequest .strict order.request).ok = true)
      (hmode : order.request.mode = .asset) (record : Record)
      (h : e.fulfil .strict order = .ok record) (himage : record.image = none)
  | failed (hok : (e.checkRequest .strict order.request).ok = true) (err : TemplateError)
      (hfails : e.Fails order.request err)
      (h : e.fulfil .strict order = .error (.renderFailed
        ((e.validate order.request).warnings ++ ["Render error: " ++ err.message])))
  | drawn (hok : (e.checkRequest .strict order.request).ok = true)
      (hmode : order.request.mode ≠ .asset) (record : Record)
      (h : e.fulfil .strict order = .ok record)
      (himage : record.image = some (e.render order.request))
      (hblank : (e.render order.request).isBlank = false)

theorem answered_standard (hgallery : e.gallery = .standard)
    (htitle : Text.isBlank order.title = false) : e.Answered order := by
  cases hok : (e.checkRequest .strict order.request).ok with
  | false => exact .refused hok (fulfil_of_errors htitle hok)
  | true =>
    by_cases hmode : order.request.mode = .asset
    · obtain ⟨record, hrecord, himage⟩ := fulfil_of_asset htitle hok hmode
      exact .stored hok hmode record hrecord himage
    · have hvalid := valid_of_checkRequest (isRenderable_iff.mpr hmode) hok
      cases hblank : (e.render order.request).isBlank with
      | true =>
        obtain ⟨err, hfails⟩ := fails_of_isBlank hgallery hvalid hblank
        exact .failed hok err hfails (fulfil_of_fails htitle hok hfails)
      | false =>
        obtain ⟨record, hrecord, himage⟩ := fulfil_of_image htitle hok hmode hblank
        exact .drawn hok hmode record hrecord himage hblank

/-- What comes of a titled order under the strict policy, in terms of the two checks and of drawing.
What the engine would refuse is refused before it is drawn; what is refused afterwards is a figure
whose drawing function failed. -/
structure Accounted (e : Engine) (order : Order) : Prop where
  /-- what passes the check of orders passes that of the engine -/
  valid : order.request.isRenderable = true →
    (e.checkRequest .strict order.request).ok = true → (e.validate order.request).ok = true
  /-- under the strict policy the engine refuses nothing more -/
  agrees : order.request.isRenderable = true → e.policy = .strict →
    (e.checkRequest .strict order.request).ok = (e.validate order.request).ok
  titled : e.fulfil .strict order ≠ .error .missingTitle
  /-- an order fails on its image if and only if the drawing function of its figure does -/
  failed : ∀ warnings, e.fulfil .strict order = .error (.renderFailed warnings) ↔
    (e.checkRequest .strict order.request).ok = true ∧ ∃ err, e.Fails order.request err ∧
      warnings = (e.validate order.request).warnings ++ ["Render error: " ++ err.message]
  /-- an order is invalid if and only if its check has errors -/
  refused : ∀ errors, e.fulfil .strict order = .error (.invalidRequest errors) ↔
    errors = (e.checkRequest .strict order.request).errors ∧ errors ≠ []
  /-- a record has an image if and only if the mode is not that of a stored asset -/
  pictured : ∀ record, e.fulfil .strict order = .ok record →
    (record.image.isSome = true ↔ order.request.mode ≠ .asset) ∧
      ∀ image, record.image = some image → image.isBlank = false

/-- over the kinds of figures, every titled order is answered this way -/
theorem accounted_standard (e : Engine) (hgallery : e.gallery = .standard) (order : Order)
    (htitle : Text.isBlank order.title = false) : e.Accounted order := by
  have hanswered : e.Answered order := answered_standard hgallery htitle
  refine ⟨valid_of_checkRequest, fun hdrawn hpolicy => ?agrees, ?titled, fun warnings => ?failed,
    fun errors => ?refused, fun record hrecord => ?pictured⟩
  case agrees =>
    rw [ok_checkRequest hdrawn, ← hpolicy]
    rfl
  case titled =>
    cases hanswered with
    | refused hok h => exact h ▸ nofun
    | stored hok hmode record h himage => exact h ▸ nofun
    | failed hok err hfails h => exact h ▸ nofun
    | drawn hok hmode record h himage hblank => exact h ▸ nofun
  case failed =>
    refine ⟨fun hfailed => ?_, fun ⟨hok, err, hfails, hwarnings⟩ => ?_⟩
    · cases hanswered with
      | refused hok h => cases h.symm.trans hfailed
      | stored hok hmode record h himage => cases h.symm.trans hfailed
      | failed hok err hfails h =>
        cases h.symm.trans hfailed
        exact ⟨hok, err, hfails, rfl⟩
      | drawn hok hmode record h himage hblank => cases h.symm.trans hfailed
    · rw [hwarnings]
      exact fulfil_of_fails htitle hok hfails
  case refused =>
    refine ⟨fun hrefused => ?_, fun ⟨hsame, hne⟩ => ?_⟩
    · cases hanswered with
      | refused hok h =>
        cases h.symm.trans hrefused
        exact ⟨rfl, fun hnone => absurd (hok.symm.trans (List.isEmpty_iff.mpr hnone)) nofun⟩
      | stored hok hmode record h himage => cases h.symm.trans hrefused
      | failed hok err hfails h => cases h.symm.trans hrefused
      | drawn hok hmode record h himage hblank => cases h.symm.trans hrefused
    · have hok : (e.checkRequest .strict order.request).ok = false :=
        Bool.eq_false_iff.mpr fun hok => hne (hsame.trans (List.isEmpty_iff.mp hok))
      rw [hsame]
      exact fulfil_of_errors htitle hok
  case pictured =>
    cases hanswered with
    | refused hok h => cases h.symm.trans hrecord
    | stored hok hmode record' h himage =>
      cases h.symm.trans hrecord
      rw [himage]
      exact ⟨⟨nofun, fun hdrawn => absurd hmode hdrawn⟩, nofun⟩
    | failed hok err hfails h => cases h.symm.trans hrecord
    | drawn hok hmode record' h himage hblank =>
      cases h.symm.trans hrecord
      rw [himage]
      exact ⟨⟨fun _ => hmode, fun _ => rfl⟩, fun image h => Option.some.inj h ▸ hblank⟩

def triangleOrder (a b c : Float) : Order where
  title := "Triangle"
  request := { Request.ofTemplate "math.geometry.triangle.v1" with
    params := ((({} : Params).withValue "a" (.number a)).withValue "b" (.number b)).withValue "c"
      (.number c) }

/-- three sides that form no triangle pass the checks, and the order fails on its image -/
theorem accounted_standard_triangle :
    (({} : Engine).gallery = .standard ∧
      Text.isBlank (triangleOrder 1.0 2.0 10.0).title = false) ∧
    ({} : Engine).Accounted (triangleOrder 1.0 2.0 10.0) ∧
    ({} : Engine).fulfil .strict (triangleOrder 1.0 2.0 10.0)
      = .error (.renderFailed ["Render error: sides 1, 2, 10 cannot form a triangle"]) := by
  have haccounted : ({} : Engine).Accounted (triangleOrder 1.0 2.0 10.0) :=
    accounted_standard {} rfl _ (by decide)
  have hfails : ({} : Engine).Fails (triangleOrder 1.0 2.0 10.0).request
      (.geometry "sides 1, 2, 10 cannot form a triangle") :=
    ⟨FigureKind.triangle.template, by rfl, by rfl⟩
  exact ⟨⟨rfl, by decide⟩, haccounted, (haccounted.failed _).mpr ⟨by rfl, _, hfails, by rfl⟩⟩

end Engine

end Figures
