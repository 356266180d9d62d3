import Figures.Proofs.Engine.Dispatch
import Figures.Proofs.Figure.Missing
import Figures.Proofs.Param.Checked

/-!
# Parameters that lack behind a check

* `Schema.presets`       a number with a preset, required or not
* `Engine.missing_iff`   which requests pass the check, and are then not drawn as a number is
                         missing
-/

namespace Figures

/-- the value `name` is a number with a preset, and it is required or not as `needed` says -/
def Schema.presets (s : Schema) (needed : Bool) (name : String) : Bool :=
  match s.values.get? name with
  | some ⟨some (.number _), required, _, _, .number⟩ => required == needed
  | _ => false

theorem Schema.spec_of_presets {s : Schema} {needed : Bool} {name : String}
    (h : s.presets needed name = true) : ∃ spec x, s.values.get? name = some spec ∧
      spec.kind = .number ∧ spec.preset = some (.number x) ∧ spec.required = needed := by
  rw [presets] at h
  split at h
  · rename_i x required min max hspec
    exact ⟨_, x, hspec, rfl, rfl, eq_of_beq h⟩
  · cases h

namespace FigureKind

theorem presets_needed (k : FigureKind) :
    ∀ name ∈ k.needed, k.template.schema.presets true name = true := by
  have hall : k.needed.all (k.template.schema.presets true) = true := by
    cases k <;> decide
  exact List.all_eq_true.mp hall

theorem presets_optional (k : FigureKind) :
    ∀ name ∈ k.optional, k.template.schema.presets false name = true := by
  have hall : k.optional.all (k.template.schema.presets false) = true := by
    cases k <;> decide
  exact List.all_eq_true.mp hall

theorem stoppedBy_congr (k : FigureKind) {lacks lacks' : String → Prop} (p : Params)
    (h : ∀ name ∈ k.optional, lacks name ↔ lacks' name) :
    k.StoppedBy lacks p ↔ k.StoppedBy lacks' p := by
  have hnames : ∀ names : List String, names ⊆ k.optional →
      ((∃ name ∈ names, lacks name) ↔ ∃ name ∈ names, lacks' name) :=
    fun names hsub => exists_congr fun name => and_congr_right fun hname => h name (hsub hname)
  cases k with
  | coordinateGrid => exact hnames _ (List.Subset.refl _)
  | numberLine =>
    exact or_congr (hnames ["min", "max", "step"] (by decide))
      (and_congr_left' (hnames ["point"] (by decide)))
  | boxPlot => exact and_congr_right' (hnames _ (List.Subset.refl _))
  | _ => exact Iff.rfl

end FigureKind

theorem Finding.calm_message (f : Finding) : Calm f.message := by
  cases f
  all_goals
    unfold Finding.message
    simp only [String.append_assoc]
    exact calm_append rfl (by decide) _

namespace Engine

variable {e : Engine} {k : FigureKind} {r : Request}

theorem not_calm_renderError (reason : String) : ¬ Calm (renderError reason) := by
  intro h
  exact h (head_append (s := "Render error: ") rfl reason)

theorem number?_settled (t : Template) (p : Params) (name : String) :
    (e.settled t p).number? name = (p.merge t.schema).number? name := by
  rw [settled, settle]
  split <;> rfl

theorem number?_settled_iff {needed : Bool} {name : String} {t : Template}
    (h : e.resolve r = .ok t) (hvalid : (e.validate r).ok = true)
    (hpresets : t.schema.presets needed name = true) :
    (e.settled t r.params).number? name = none ↔ r.params.Blank name ∧ needed = false := by
  obtain ⟨spec, x, hspec, hkind, hpreset, hrequired⟩ := Schema.spec_of_presets hpresets
  rw [validate_of_resolve h] at hvalid
  rw [number?_settled, Params.number?_merge_iff hvalid hspec hkind hpreset, hrequired]

theorem calm_warnings {t : Template} (h : e.resolve r = .ok t) :
    ∀ w ∈ (e.validate r).warnings, Calm w := by
  intro w hw
  rw [validate_of_resolve h] at hw
  obtain ⟨f, rfl⟩ := Params.mem_warnings_check hw
  exact f.calm_message

theorem not_lacks_needed (h : e.resolve r = .ok k.template) (hvalid : (e.validate r).ok = true) :
    ¬ (e.settled k.template r.params).Lacks k.needed := by
  rintro ⟨name, hname, hnone⟩
  have hpresets := k.presets_needed name hname
  exact absurd ((number?_settled_iff h hvalid hpresets).mp hnone).2 (by decide)

/-- behind a check without errors, the optional numbers that lack are those given as blanks -/
theorem stoppedBy_blank_iff (h : e.resolve r = .ok k.template)
    (hvalid : (e.validate r).ok = true) (p : Params) : k.StoppedBy r.params.Blank p
      ↔ k.StoppedBy (fun name => (e.settled k.template r.params).number? name = none) p := by
  refine k.stoppedBy_congr p fun name hname => ?_
  rw [number?_settled_iff h hvalid (k.presets_optional name hname)]
  exact (and_iff_left rfl).symm

/-- A request that passes the check is not drawn as a number is missing if and only if the caller
gave, as a text of blanks, a number that the figure asks for and its schema does not require. -/
theorem missing_iff (hresolve : e.resolve r = .ok k.template)
    (hvalid : (e.validate r).ok = true) :
    (∃ name, renderError (TemplateError.missing name).message ∈ (e.render r).warnings)
      ↔ k.StoppedBy r.params.Blank (e.settled k.template r.params) := by
  have hcalm := calm_warnings hresolve
  obtain ⟨hstops, hquiet⟩ := k.stops_scene (e.settled k.template r.params) (Pen.of e.context)
  have hmisses := k.misses_scene (e.settled k.template r.params) (Pen.of e.context)
  rw [stoppedBy_blank_iff hresolve hvalid, render_of_validate hresolve hvalid, k.draw_template]
  cases hscene : k.scene (e.settled k.template r.params) (Pen.of e.context) with
  | ok s =>
    -- the warnings are those of the check and of the scene, and none of them reports an error
    refine iff_of_false ?_ fun hstopped => ?_
    · rintro ⟨name, hname⟩
      rcases List.mem_append.mp hname with hname | hname
      · exact not_calm_renderError _ (hcalm _ hname)
      · exact not_calm_renderError _ (hquiet s hscene _ hname)
    · obtain ⟨name, hmissing⟩ := hmisses hstopped
      rw [hscene] at hmissing
      cases hmissing
  | error err =>
    constructor
    · rintro ⟨name, hname⟩
      rcases List.mem_append.mp hname with hname | hname
      · exact absurd (hcalm _ hname) (not_calm_renderError _)
      · have hmessage : (TemplateError.missing name).message = err.message :=
          (String.append_right_inj "Render error: ").mp (List.mem_singleton.mp hname)
        rcases hstops err hscene with ⟨-, hneeds | hstopped⟩ | hother
        · exact absurd hneeds (not_lacks_needed hresolve hvalid)
        · exact hstopped
        · exact absurd hmessage.symm (hother name)
    · intro hstopped
      obtain ⟨name, hmissing⟩ := hmisses hstopped
      rw [hscene] at hmissing
      cases hmissing
      exact ⟨name, List.mem_append_right _ List.mem_cons_self⟩

/-- a coordinate grid whose left end is a text of blanks -/
def unplaced : Request :=
  { mode := .template, templateId := some "math.graphs.coordinate_point.v1",
    params := { values := .ofList [("xMin", .text "")] } }

theorem valid_unplaced : (({} : Engine).validate unplaced).ok = true := by
  decide

/-- it passes the check and is not drawn -/
theorem missing_unplaced : (({} : Engine).validate unplaced).ok = true ∧
    renderError (TemplateError.missing "xMin").message ∈ (({} : Engine).render unplaced).warnings :=
  ⟨valid_unplaced, by decide⟩

theorem missing_iff_unplaced :
    (({} : Engine).resolve unplaced = .ok FigureKind.coordinateGrid.template ∧
      (({} : Engine).validate unplaced).ok = true) ∧
    ∃ name, renderError (TemplateError.missing name).message
      ∈ (({} : Engine).render unplaced).warnings := by
  have hresolve : ({} : Engine).resolve unplaced = .ok FigureKind.coordinateGrid.template := rfl
  refine ⟨⟨hresolve, valid_unplaced⟩, (missing_iff hresolve valid_unplaced).mpr ?_⟩
  exact ⟨"xMin", by decide, .text "", rfl, rfl⟩

end Engine

end Figures
