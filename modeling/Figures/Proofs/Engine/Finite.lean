import Figures.Proofs.Engine.Dispatch
import Figures.Proofs.Engine.Picture
import Figures.Proofs.Figure.Bars
import Figures.Proofs.Figure.Grid
import Figures.Proofs.Figure.Polygons
import Figures.Proofs.Figure.Solids
import Figures.Proofs.Param.Merged

/-!
# Pictures of finite numbers

* `FigureKind.Sound k params pen`   what has to be finite, or a number, in a figure of a kind
* `Engine.writing e w`              the engine whose figures write their numbers as `w` does
* `Engine.WritesFinite e r`         every number in the picture of a request is finite
* `Engine.steady_of_outcomes`       the pictures of a request under all numerals
* `Engine.render_finite_iff`        a picture has finite numbers only if and only if its figure is
                                    sound
* `Engine.not_render_finite`        that is not so of all figures with finite parameters

The usual numerals write `0` for what is not finite. A picture that is the same under all numerals
that agree on finite numbers holds no such `0`.
-/

namespace Figures

namespace FigureKind

/-- what has to be finite, or a number, in a figure of a kind -/
def Sound [Platform] : FigureKind → Params → Pen → Prop
  | coordinateGrid => CoordinateGrid.Sound
  | numberLine => fun params _ => NumberLine.Sound params
  | triangle => Triangle.Sound
  | rectangle => Rectangle.Sound
  | circle => Circle.Sound
  | angle => fun _ => Angle.Sound
  | cuboid => fun params _ => Cuboid.Sound params
  | cylinder => Cylinder.Sound
  | barChart => fun params _ => BarChart.Sound params
  | boxPlot => fun params _ => BoxPlot.Sound params
  | seriesCircuit => fun params _ => SeriesCircuit.Sound params

end FigureKind

/-- the outcomes under all numerals fail alike, or their images are steady if and only if `q` -/
def Outcomes (o : Numerals → Outcome) (q : Prop) : Prop :=
  (∃ err, ∀ w, o w = .failed err) ∨
    ∃ image : Numerals → Image, (∀ w, o w = .drawn (image w)) ∧
    Steady marks (fun w => (image w).svg) q

theorem Renders.outcomes {x : Numerals → Except TemplateError Scene} {q : Prop} (h : Renders x q)
    (ctx : Context) :
    Outcomes (fun w => match x w with
      | .ok s => .drawn (@Scene.image w s ctx)
      | .error err => .failed err) q := by
  rcases h with ⟨err, hx⟩ | ⟨s, hx, hs⟩
  · exact .inl ⟨err, fun w => by simp only [hx]⟩
  · exact .inr ⟨fun w => @Scene.image w (s w) ctx, fun w => by simp only [hx], hs.image ctx⟩

theorem FigureKind.outcomes [Platform] [Platform.Sound] (k : FigureKind) {params : Params}
    (hfinite : params.Finite) (ctx : Context) :
    Outcomes (fun w => (@template w _ k).draw params ctx) (k.Sound params (Pen.of ctx)) := by
  cases k with
  | coordinateGrid => exact (CoordinateGrid.renders params _ hfinite).outcomes ctx
  | numberLine => exact (NumberLine.renders params _).outcomes ctx
  | triangle => exact (Triangle.renders params _ hfinite).outcomes ctx
  | rectangle => exact (Rectangle.renders params _ hfinite).outcomes ctx
  | circle => exact (Circle.renders params _ hfinite).outcomes ctx
  | angle => exact (Angle.renders params _ hfinite).outcomes ctx
  | cuboid => exact (Cuboid.renders params _ hfinite).outcomes ctx
  | cylinder => exact (Cylinder.renders params _ hfinite).outcomes ctx
  | barChart => exact (BarChart.renders params _ hfinite).outcomes ctx
  | boxPlot => exact (BoxPlot.renders params _ hfinite).outcomes ctx
  | seriesCircuit => exact (SeriesCircuit.renders params _ hfinite).outcomes ctx

/-- what is steady is the same under all numerals that agree on finite numbers -/
theorem Steady.unchanged_iff {α : Type} {size : α → ℕ} {f : Numerals → α} {q : Prop}
    (h : Steady size f q) :
    (∀ w : Numerals, w.Agrees → f w = f .standard) ↔ q := by
  refine ⟨fun hsame => ?_, h.same⟩
  by_contra hq
  have hlt := h.lt hq
  rw [hsame .marked Numerals.agrees_marked] at hlt
  exact lt_irrefl _ hlt

/-! ### parameters -/

def Schema.presetsFinite (s : Schema) : Bool :=
  s.values.entries.all fun e => (e.2.preset >>= Setting.number?).all Float.isFinite

theorem FigureKind.presetsFinite [Platform] (k : FigureKind) :
    k.template.schema.presetsFinite = true := by
  cases k <;> rfl

theorem Params.Finite.empty : ({} : Params).Finite := nofun

theorem Params.Finite.withValue {p : Params} (h : p.Finite) (name : String) {value : Setting}
    (hvalue : ∀ x, value.number? = some x → x.isFinite = true) :
      (p.withValue name value).Finite := by
  intro other x hx
  rw [Params.number?, Params.withValue] at hx
  dsimp only at hx
  rw [Dict.get?_insert] at hx
  split at hx
  · exact hvalue x hx
  · exact h other x hx

/-- filling up and settling bring in finite numbers only -/
theorem Params.Finite.settled [Platform] {p : Params} (h : p.Finite) (e : Engine) (k : FigureKind) :
    (e.settled k.template p).Finite := by
  have hmerge : (p.merge k.template.schema).Finite := by
    intro name x hx
    obtain ⟨v, hv, hnumber⟩ := Option.bind_eq_some_iff.mp hx
    rw [(filledFrom_merge p k.template.schema).values] at hv
    rcases Option.or_eq_some_iff.mp hv with hgiven | ⟨-, hpreset⟩
    · exact h name x (Option.bind_eq_some_iff.mpr ⟨v, hgiven, hnumber⟩)
    · obtain ⟨spec, hspec, hpreset⟩ := Option.bind_eq_some_iff.mp hpreset
      have hall := List.all_eq_true.mp k.presetsFinite _ (Dict.mem_of_get? hspec)
      rw [hpreset, Option.bind_eq_bind, Option.bind_some, hnumber] at hall
      exact hall
  rw [Engine.settled, Engine.settle]
  cases e.policy with
  | strict => exact hmerge
  | lenient => exact hmerge

/-! ### pictures -/

section Kinds

variable [Platform] {w : Numerals} (k : FigureKind)

theorem FigureKind.id_template : (@template w _ k).id = k.templateId := by
  cases k <;> simp only [template, templateId, Figures.coordinateGrid, Figures.numberLine,
    Figures.triangle, Figures.rectangle, Figures.circle, Figures.angle, Figures.cuboid,
    Figures.cylinder, Figures.barChart, Figures.boxPlot, Figures.seriesCircuit, Template.ofScene]

theorem FigureKind.schema_template :
    (@template w _ k).schema = (@template .standard _ k).schema := by
  cases k <;> simp only [template, Figures.coordinateGrid, Figures.numberLine, Figures.triangle,
    Figures.rectangle, Figures.circle, Figures.angle, Figures.cuboid, Figures.cylinder,
    Figures.barChart, Figures.boxPlot, Figures.seriesCircuit, Template.ofScene]

theorem Gallery.get?_standard_of :
    (@Gallery.standard w _).get? k.templateId = some (@FigureKind.template w _ k) := by
  have hids : Template.id ∘ @FigureKind.template w _ = FigureKind.templateId :=
    funext fun k => k.id_template
  rw [← k.id_template (w := w)]
  refine get?_ofList_of_mem ?_ (List.mem_map_of_mem (by cases k <;> decide))
  rw [List.map_map, hids]
  decide

end Kinds

namespace Engine

section
variable [Platform]

/-- the engine whose figures write their numbers as `w` does -/
def writing (e : Engine) (w : Numerals) : Engine := { e with gallery := @Gallery.standard w _ }

/-- Every number that is written in the picture of a request is finite: the picture is the same,
however the others are written. -/
def WritesFinite (e : Engine) (r : Request) : Prop :=
  ∀ w : Numerals, w.Agrees → ((e.writing w).render r).svg = ((e.writing .standard).render r).svg

variable {e : Engine} {r : Request}

/-- the kind of figure of a request, the same however numbers are written -/
theorem exists_kind_of_resolve {w : Numerals} {t : Template} (h : (e.writing w).resolve r = .ok t) :
    ∃ k : FigureKind, r.template? = some k.templateId ∧
      ∀ w', (e.writing w').resolve r = .ok (@FigureKind.template w' _ k) := by
  obtain ⟨hbears, id, hid, hget⟩ := resolve_eq_ok_iff.mp h
  obtain ⟨hmem, rfl⟩ := Gallery.mem_of_get?_ofList hget
  obtain ⟨k, -, rfl⟩ := List.mem_map.mp hmem
  rw [k.id_template] at hid
  exact ⟨k, hid, fun w' =>
    resolve_eq_ok_iff.mpr ⟨hbears, k.templateId, hid, Gallery.get?_standard_of k⟩⟩

theorem policy_writing (w : Numerals) : (e.writing w).policy = e.policy := by rw [writing]

theorem context_writing (w : Numerals) : (e.writing w).context = e.context := by rw [writing]

theorem settled_writing (w : Numerals) (k : FigureKind) (p : Params) :
    (e.writing w).settled (@FigureKind.template w _ k) p
      = e.settled (@FigureKind.template .standard _ k) p :=
  settled_congr (policy_writing w) k.schema_template p

/-- whether a figure is drawn, and from which parameters, does not depend on how its numbers are
written -/
theorem render_writing {w : Numerals} {k : FigureKind}
    (h : (e.writing w).resolve r = .ok (@FigureKind.template w _ k)) (diagnosis : Diagnosis)
    (hdiagnosis : diagnosis = (r.params.merge (@FigureKind.template .standard _ k).schema).check
      (@FigureKind.template .standard _ k).schema e.policy) :
    (e.writing w).render r
      = if diagnosis.ok then
          finish diagnosis.warnings ((@FigureKind.template w _ k).draw
            (e.settled (@FigureKind.template .standard _ k) r.params) e.context)
        else .blank (diagnosis.warnings ++ diagnosis.errors) := by
  rw [← k.schema_template (w := w)] at hdiagnosis
  rw [render_of_resolve h, renderTemplate_eq, settled_writing, policy_writing, context_writing,
    hdiagnosis]

theorem steady_of_outcomes {k : FigureKind} {q : Prop}
    (hk : ∀ w, (e.writing w).resolve r = .ok (@FigureKind.template w _ k))
    (houtcomes : Outcomes (fun w => (@FigureKind.template w _ k).draw
      (e.settled (@FigureKind.template .standard _ k) r.params) e.context) q) :
    (∀ w, ((e.writing w).render r).svg = "") ∨
      Steady marks (fun w => ((e.writing w).render r).svg) q := by
  have hrender := fun w => render_writing (hk w) _ rfl
  by_cases hok : ((r.params.merge k.template.schema).check k.template.schema e.policy).ok = true
  · rcases houtcomes with ⟨err, hfailed⟩ | ⟨image, hdrawn, hsteady⟩
    · beta_reduce at hfailed
      refine .inl fun w => ?_
      rw [hrender, if_pos hok, hfailed]
      rfl
    · refine .inr ?_
      simp only [hrender, if_pos hok, hdrawn]
      exact hsteady
  · refine .inl fun w => ?_
    rw [hrender, if_neg hok]
    rfl

/-- there is no picture, however numbers are written, or the figure is of one of the kinds -/
theorem blank_or_exists_kind (hblueprint : r.usesBlueprint = false) :
    (∀ w, ((e.writing w).render r).svg = "") ∨ ∃ k : FigureKind, r.template? = some k.templateId ∧
      ∀ w, (e.writing w).resolve r = .ok (@FigureKind.template w _ k) := by
  cases hresolve : (e.writing .standard).resolve r with
  | ok t => exact .inr (exists_kind_of_resolve hresolve)
  | error problem =>
    refine .inl fun w => ?_
    cases hw : (e.writing w).resolve r with
    | error problem =>
      rw [render, hblueprint, hw]
      rfl
    | ok t =>
      obtain ⟨k, -, hk⟩ := exists_kind_of_resolve hw
      rw [hk .standard] at hresolve
      contradiction

/-- **The numbers of pictures.** Every number in a picture is finite if and only if its figure is
sound. -/
theorem render_finite_iff [Platform.Sound] (e : Engine) (r : Request)
    (hblueprint : r.usesBlueprint = false) (hfinite : r.params.Finite)
    (hdrawn : ((e.writing .standard).render r).svg ≠ "") :
    ∃ k : FigureKind, r.template? = some k.templateId ∧
      (e.WritesFinite r ↔ k.Sound (e.settled k.template r.params) (Pen.of e.context)) := by
  rcases blank_or_exists_kind hblueprint with hblank | ⟨k, hid, hk⟩
  · exact absurd (hblank .standard) hdrawn
  · rcases steady_of_outcomes hk (k.outcomes (hfinite.settled e k) e.context) with hblank | hsteady
    · exact absurd (hblank .standard) hdrawn
    · exact ⟨k, hid, hsteady.unchanged_iff⟩

theorem resolve_writing (w : Numerals) {k : FigureKind} (hmode : r.mode.bearsTemplate = true)
    (hid : r.template? = some k.templateId) :
    (e.writing w).resolve r = .ok (@FigureKind.template w _ k) :=
  resolve_eq_ok_iff.mpr ⟨hmode, k.templateId, hid, Gallery.get?_standard_of k⟩

theorem writing_ne_empty {k : FigureKind}
    (hresolve : (e.writing .standard).resolve r = .ok k.template)
    (hvalid : ((r.params.merge k.template.schema).check k.template.schema e.policy).ok = true)
    (hscene : (k.scene (e.settled k.template r.params) (Pen.of e.context)).isOk = true) :
    ((e.writing .standard).render r).svg ≠ "" := by
  obtain ⟨s, hs⟩ := ok_of_isOk hscene
  have hrender : ((e.writing .standard).render r).svg = (s.image e.context).svg := by
    rw [render_writing hresolve _ rfl, if_pos hvalid, FigureKind.draw_template, hs, finish,
      Image.withLeading]
  exact fun hblank => s.svg_ne_empty e.context (hrender.symm.trans hblank)

end

def threeSides (k : FigureKind) (names : String × String × String) (side : Float) : Request :=
  { Request.ofTemplate k.templateId with
    params := ((({} : Params).withValue names.1 (.number side)).withValue names.2.1
      (.number side)).withValue names.2.2 (.number side) }

theorem finite_threeSides (k : FigureKind) (names : String × String × String) {side : Float}
    (h : side.isFinite = true) : (threeSides k names side).params.Finite := by
  have hside : ∀ x, (Setting.number side).number? = some x → x.isFinite = true :=
    fun x hx => Option.some.inj hx ▸ h
  exact ((Params.Finite.empty.withValue _ hside).withValue _ hside).withValue _ hside

/-- a triangle with three sides of one length -/
def equilateral (side : Float) : Request := threeSides .triangle ("a", "b", "c") side

/-- with sides of length 3 all numbers are finite -/
theorem render_finite_equilateral :
    (@Platform.Sound Platform.ideal ∧ (equilateral 3.0).usesBlueprint = false ∧
      (equilateral 3.0).params.Finite ∧ (@render Platform.ideal
        (@writing Platform.ideal {} .standard) (equilateral 3.0)).svg ≠ "") ∧
    @WritesFinite Platform.ideal {} (equilateral 3.0) := by
  let _ := Platform.ideal
  have hsound := Platform.sound_ideal
  have hfinite : (equilateral 3.0).params.Finite := finite_threeSides _ _ (by decide)
  have hdrawn : ((({} : Engine).writing .standard).render (equilateral 3.0)).svg ≠ "" :=
    writing_ne_empty (k := .triangle) (resolve_writing _ rfl rfl) (by decide +kernel)
      (by decide +kernel)
  refine ⟨⟨hsound, by decide, hfinite, hdrawn⟩, ?_⟩
  obtain ⟨k, hid, hiff⟩ := render_finite_iff {} _ (by decide) hfinite hdrawn
  obtain rfl : k = .triangle := by
    cases k <;> first | rfl | exact absurd hid (by decide)
  have hsides : ∀ name ∈ ["a", "b", "c"], (({} : Engine).settled FigureKind.triangle.template
      (equilateral 3.0).params).number? name = some 3.0 := by decide +kernel
  simp only [List.forall_mem_cons] at hsides
  obtain ⟨hsideA, hsideB, hsideC, -⟩ := hsides
  refine hiff.mpr ⟨fun a ha b hb c hc => ?_, by decide⟩
  obtain rfl := Option.some.inj (ha.symm.trans hsideA)
  obtain rfl := Option.some.inj (hb.symm.trans hsideB)
  obtain rfl := Option.some.inj (hc.symm.trans hsideC)
  decide

/-- what is drawn of a cuboid needs no function of the platform -/
theorem steady_cuboid (e : Engine) (r : Request) (hmode : r.mode.bearsTemplate = true)
    (hid : r.template? = some FigureKind.cuboid.templateId) (hfinite : r.params.Finite) :
    (∀ w, ((e.writing w).render r).svg = "") ∨ Steady marks (fun w => ((e.writing w).render r).svg)
      (Cuboid.Sound (e.settled FigureKind.cuboid.template r.params)) :=
  steady_of_outcomes (k := .cuboid) (fun w => resolve_writing w hmode hid)
    ((Cuboid.renders _ (Pen.of e.context) (hfinite.settled e .cuboid)).outcomes e.context)

def cube (side : Float) : Request := threeSides .cuboid ("length", "width", "height") side

/-- with edges of length 1e-308 the scale is infinite, and the picture is drawn all the same -/
theorem not_render_finite : ¬ ∀ (e : Engine) (r : Request), r.usesBlueprint = false →
    r.params.Finite →
      (∀ name p, r.params.positions.get? name = some (.known p) → p.isFinite = true) →
      ((e.writing .standard).render r).svg ≠ "" → e.WritesFinite r := by
  intro hall
  have hfinite : (cube 1e-308).params.Finite := finite_threeSides _ _ (by decide +kernel)
  have hdrawn : ((({} : Engine).writing .standard).render (cube 1e-308)).svg ≠ "" :=
    writing_ne_empty (k := .cuboid) (resolve_writing _ rfl rfl) (by decide +kernel)
      (by decide +kernel)
  have hwrites := hall {} (cube 1e-308) (by decide +kernel) hfinite nofun hdrawn
  rcases steady_cuboid {} (cube 1e-308) rfl rfl hfinite with hblank | hsteady
  · exact hdrawn (hblank .standard)
  · have hscale := hsteady.unchanged_iff.mp hwrites 1e-308 (by decide +kernel) 1e-308
      (by decide +kernel) 1e-308 (by decide +kernel)
    exact absurd hscale (by decide +kernel)

end Engine

end Figures
