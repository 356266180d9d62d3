import Figures.Proofs.Figure.Scenes
import Figures.Proofs.Param.Declared

/-!
# What figures read

* `Circle.scene_congr`, …     the scene of a figure depends on the declared parameters only
* `FigureKind.Agrees k p q`   the parameters are the same as far as a figure reads them
* `FigureKind.scene_congr`    then so are its scenes

Each figure asks for its parameters by name, and each name stands in the schema. The coordinate grid
also goes through all positions, and asks for a label of each.
-/

namespace Figures

variable {p q : Params} (pen : Pen)

theorem Circle.scene_congr (h : p.AgreesOn schema q) : scene p pen = scene q pen := by
  simp (disch := decide) only [scene, h.positive, h.text, h.visible, h.label, h.labelOr]

theorem Cylinder.scene_congr (h : p.AgreesOn schema q) : scene p pen = scene q pen := by
  simp (disch := decide) only [scene, h.positive, h.text, h.visible, h.labelOr]

theorem Cuboid.scene_congr (h : p.AgreesOn schema q) : scene p pen = scene q pen := by
  simp (disch := decide) only [scene, h.positive, h.text, h.visible, h.label, h.labelOr]

theorem Angle.scene_congr (h : p.AgreesOn schema q) : scene p pen = scene q pen := by
  simp (disch := decide) only [scene, size, h.required, h.visible, h.label, h.labelOr]

theorem Rectangle.scene_congr (h : p.AgreesOn schema q) : scene p pen = scene q pen := by
  simp (disch := decide) only [scene, vertexMark, List.flatMap_cons, List.flatMap_nil, h.positive,
    h.text, h.visible, h.label, h.labelOr]

theorem Triangle.scene_congr (h : p.AgreesOn schema q) : scene p pen = scene q pen := by
  simp (disch := decide) only [scene, angleMark, vertexMark, h.positive, h.text, h.visible,
    h.label, h.labelOr]

theorem SeriesCircuit.scene_congr (h : p.AgreesOn schema q) : scene p pen = scene q pen := by
  simp (disch := decide) only [scene, resistor, cell, h.positive, h.text, h.visible, h.label]

theorem NumberLine.scene_congr (h : p.AgreesOn schema q) : scene p pen = scene q pen := by
  simp (disch := decide) only [scene, axis, tick, marked, h.required, h.positive, h.text,
    h.visible, h.label]

theorem BoxPlot.scene_congr (h : p.AgreesOn schema q) : scene p pen = scene q pen := by
  simp (disch := decide) only [scene, Summary.ofParams, h.required, h.positive, h.visible, h.label]

theorem BarChart.scene_congr (h : p.AgreesOn schema q) : scene p pen = scene q pen := by
  have hstep : stepMark p = stepMark q := by
    funext pen yMax step i
    simp (disch := decide) only [stepMark, h.visible]
  simp (disch := decide) only [scene, axes, hstep, yAxisName, bar, h.number?, h.text,
    h.visible, h.label]

namespace CoordinateGrid

theorem plot_congr (h : p.AgreesOn schema q) {name : String}
    (hlabel : p.labels.get? name = q.labels.get? name)
    (f : Frame) (given : Position) : plot p pen f name given = plot q pen f name given := by
  simp (disch := decide) only [plot, plotText, hlabel, h.visible]

theorem scene_congr (h : p.AgreesOn schema q) (hpositions : p.positions = q.positions)
    (hlabels : ∀ name, p.positions.contains name = true → p.labels.get? name = q.labels.get? name) :
    scene p pen = scene q pen := by
  have hplots : ∀ f, (p.positions.entries.map fun e => plot p pen f e.1 e.2)
      = q.positions.entries.map fun e => plot q pen f e.1 e.2 := by
    intro f
    rw [← hpositions]
    refine List.map_congr_left fun e he => plot_congr pen h (hlabels e.1 ?_) f e.2
    rw [Dict.contains, Dict.get?_eq_some_iff.mpr he]
    rfl
  simp (disch := decide) only [scene, hplots, axes, h.required, h.positive, h.visible, h.label]

end CoordinateGrid

namespace FigureKind

/-- The parameters are the same as far as a figure reads them: at the keys that its schema declares,
and for the coordinate grid also in all positions and in the labels that are named like one. -/
structure Agrees (k : FigureKind) (p q : Params) : Prop where
  declared : p.AgreesOn k.template.schema q
  positions : k = coordinateGrid → p.positions = q.positions
  labels : k = coordinateGrid → ∀ name, p.positions.contains name = true →
    p.labels.get? name = q.labels.get? name

/-- what a figure draws depends on nothing else -/
theorem scene_congr {k : FigureKind} (h : k.Agrees p q) : k.scene p pen = k.scene q pen := by
  obtain ⟨hdeclared, hpositions, hlabels⟩ := h
  cases k with
  | coordinateGrid => exact CoordinateGrid.scene_congr pen hdeclared (hpositions rfl) (hlabels rfl)
  | numberLine => exact NumberLine.scene_congr pen hdeclared
  | triangle => exact Triangle.scene_congr pen hdeclared
  | rectangle => exact Rectangle.scene_congr pen hdeclared
  | circle => exact Circle.scene_congr pen hdeclared
  | angle => exact Angle.scene_congr pen hdeclared
  | cuboid => exact Cuboid.scene_congr pen hdeclared
  | cylinder => exact Cylinder.scene_congr pen hdeclared
  | barChart => exact BarChart.scene_congr pen hdeclared
  | boxPlot => exact BoxPlot.scene_congr pen hdeclared
  | seriesCircuit => exact SeriesCircuit.scene_congr pen hdeclared

theorem declared_label {name : String}
    (h : (coordinateGrid.template.schema.positions).contains name = true) :
    coordinateGrid.template.schema.labels.contains name = true := by
  obtain ⟨spec, hspec⟩ := Option.isSome_iff_exists.mp h
  have hentries : coordinateGrid.template.schema.positions.entries
      = [("P", { preset := some ⟨2.0, 3.0⟩ })] := rfl
  rw [Dict.get?_eq_some_iff, hentries, List.mem_singleton] at hspec
  obtain ⟨rfl, -⟩ := Prod.mk.inj hspec
  rfl

namespace Agrees

variable {k : FigureKind} (h : k.Agrees p q)
include h

/-- to fill up changes nothing about what is the same -/
theorem merge : k.Agrees (p.merge k.template.schema) (q.merge k.template.schema) := by
  refine ⟨h.declared.merge, fun hk => ?_, fun hk name hname => ?_⟩
  · rw [Params.merge, Params.merge, h.positions hk]
  · by_cases hdeclared : k.template.schema.labels.contains name = true
    · exact h.declared.merge.labels name hdeclared
    · -- then the position has no preset, so the caller gave it
      have hnone : k.template.schema.positions.get? name = none := by
        subst hk
        exact Option.not_isSome_iff_eq_none.mp (mt declared_label hdeclared)
      have hgiven : p.positions.contains name = true := by
        rw [Dict.contains, (p.filledFrom_merge _).positions, hnone, Option.bind_eq_bind,
          Option.bind_none, Option.map_none, Option.or_none] at hname
        exact hname
      rw [(p.filledFrom_merge _).labels, (q.filledFrom_merge _).labels, h.labels hk name hgiven]

theorem settleFlags : k.Agrees (p.settleFlags k.template.schema)
    (q.settleFlags k.template.schema) :=
  ⟨h.declared.settleFlags, h.positions, h.labels⟩

end Agrees

end FigureKind

end Figures
