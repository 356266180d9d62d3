import Figures.Proofs.Except
import Figures.Proofs.Figure.Scenes
import Figures.Proofs.Sheet.Words

/-!
# The words of figures

* `Params.Worded`               the labels, texts and names of positions have allowed characters and
                                given ones only
* `Scene.Worded`                so has a scene, its root group included
* `FigureKind.worded_scene`     a figure writes numbers, words of its own, and those of its
                                parameters
-/

namespace Figures

variable {given : List Char}

/-- the labels, the texts among the values and the names of positions have allowed characters and
given ones only -/
structure Params.Worded (given : List Char) (p : Params) : Prop where
  label : ∀ name s, p.labels.get? name = some s → Spelled given s
  value : ∀ name s, p.values.get? name = some (.text s) → Spelled given s
  position : ∀ e ∈ p.positions.entries, Spelled given e.1

def Scene.Worded (given : List Char) (s : Scene) : Prop :=
  Figures.Worded given (Pen.group s.root s.drawing)

theorem Template.spelled_measure (x : Float) {unit : String} (h : Spelled given unit) :
    Spelled given (measure x unit) := by
  unfold measure
  dsimp only
  split
  · exact spelled_tidy 2 x
  · exact spelled_append.mpr ⟨spelled_append.mpr ⟨spelled_tidy 2 x, spelled_of_allowed (by decide)⟩,
      h.trim⟩

@[simp] theorem Template.spelled_degreesText (x : Float) : Spelled given (degreesText x) :=
  spelled_append.mpr ⟨spelled_tidy 1 x, spelled_of_allowed (by decide)⟩

namespace Params.Worded

variable {params : Params} (h : params.Worded given)
include h

theorem spelled_label (name : String) : Spelled given (params.label name) := by
  unfold Params.label
  cases hget : params.labels.get? name with
  | none => exact spelled_empty
  | some s => exact h.label name s hget

theorem spelled_text (name : String) : Spelled given (params.text name) := by
  unfold Params.text
  cases hget : params.values.get? name with
  | none => exact spelled_empty
  | some v =>
    cases v with
    | number x => exact spelled_plain x
    | text s => exact h.value name s hget

theorem spelled_labelOr (name : String) {fallback : String} (hfallback : Spelled given fallback) :
    Spelled given (params.labelOr name fallback) := by
  unfold labelOr
  dsimp only
  split
  · exact hfallback
  · exact h.spelled_label name

theorem spelled_measured (name : String) (x : Float) :
    Spelled given (params.labelOr name (Template.measure x (params.text "unit"))) :=
  h.spelled_labelOr name (Template.spelled_measure x (h.spelled_text "unit"))

end Params.Worded

variable (params : Params) (pen : Pen) (h : params.Worded given)

theorem Scene.worded_mk {width height : Float} {root : String} {drawing : Drawing}
    {warnings : List String} (hroot : Allowed root) (h : Figures.Worded given drawing) :
    Scene.Worded given ⟨width, height, root, drawing, warnings⟩ :=
  worded_group_iff.mpr ⟨spelled_of_allowed hroot, h⟩

/-! ### circles and angles -/

namespace Circle

include h

theorem worded_scene : Gives (Scene.Worded given) (scene params pen) := by
  refine .bind fun radius _ => .pure (Scene.worded_mk (by decide) ?_)
  simp +decide [diameterMark, radiusMark, h.spelled_measured, h.spelled_label]

end Circle

namespace Cylinder

include h

theorem worded_scene : Gives (Scene.Worded given) (scene params pen) := by
  refine .bind fun radius _ => .bind fun rise _ => .pure (Scene.worded_mk (by decide) ?_)
  simp +decide [h.spelled_measured]

end Cylinder

namespace Angle

include h

theorem worded_scene : Gives (Scene.Worded given) (scene params pen) := by
  refine .bind fun x _ => .pure (Scene.worded_mk (by decide) ?_)
  simp +decide [h.spelled_labelOr, h.spelled_label]

end Angle

/-! ### figures with corners -/

namespace Cuboid

include h

theorem worded_scene : Gives (Scene.Worded given) (scene params pen) := by
  refine .bind fun length _ => .bind fun depth _ => .bind fun rise _ =>
    .pure (Scene.worded_mk (by decide) ?_)
  simp +decide [h.spelled_measured, h.spelled_label]

end Cuboid

namespace Rectangle

include h

theorem worded_scene : Gives (Scene.Worded given) (scene params pen) := by
  refine .bind fun w _ => .bind fun height _ => .pure (Scene.worded_mk (by decide) ?_)
  simp +decide [rightMark, vertexMark, h.spelled_measured, h.spelled_label]

end Rectangle

namespace Triangle

include h

theorem worded_scene : Gives (Scene.Worded given) (scene params pen) := by
  refine .bind fun a _ => .bind fun b _ => .bind fun c _ => .bind fun corners _ =>
    .pure (Scene.worded_mk (by decide) ?_)
  simp +decide [angleMark, vertexMark, h.spelled_measured, h.spelled_label]

end Triangle

/-! ### lines of numbers -/

namespace NumberLine

include h

theorem worded_marked (shade : Shade) (p : Point) : Worded given (marked params pen shade p) := by
  refine worded_append_iff.mpr ⟨worded_append_iff.mpr ⟨?shading, ?point⟩, ?label⟩
  case shading =>
    split
    · exact List.forall_mem_singleton.mpr (worded_line pen.places (worded_named
        (spelled_of_allowed (by decide)) (spelled_of_allowed (by decide))
          (by simp +decide [Attr.words])) _ _)
    · exact worded_nil
  case point =>
    refine List.forall_mem_singleton.mpr (worded_circle pen.places (worded_named
        (spelled_of_allowed (by decide)) (spelled_of_allowed (by decide)) ?_) _ _)
    split <;> simp +decide [Attr.words]
  case label => exact pen.worded_label (spelled_of_allowed (by decide)) (h.spelled_label "point") _

theorem worded_scene : Gives (Scene.Worded given) (scene params pen) := by
  have hline : ∀ (marks : List Float) (xOf : Float → Float), Worded given
      (axis params pen ++ Pen.group "ticks" (marks.flatMap fun v =>
        tick params pen v (xOf v))) := by
    intro marks xOf
    simp +decide [axis, tick]
  refine .bind fun lo _ => .bind fun hi _ => .bind fun step _ => .bind fun shade _ => ?_
  refine .ite (fun _ => .error _) fun _ => ?_
  -- the ticks may not be countable
  dsimp only
  split
  · refine .ite (fun _ => .bind fun v _ => .ite (fun _ => ?_) fun _ => ?_) fun _ => ?_
    · exact .pure (Scene.worded_mk (by decide) (hline _ _))
    · exact .pure (Scene.worded_mk (by decide)
        (worded_append_iff.mpr ⟨hline _ _, worded_marked params pen h shade _⟩))
    · exact .pure (Scene.worded_mk (by decide) (hline _ _))
  · exact .error _

end NumberLine

namespace BoxPlot

include h

theorem worded_scene : Gives (Scene.Worded given) (scene params pen) := by
  refine .bind fun summary _ => .bind fun lo _ => .bind fun hi _ => .bind fun step _ => ?_
  refine .ite (fun _ => .error _) fun _ => ?_
  dsimp only
  split
  · refine .pure (Scene.worded_mk (by decide) ?_)
    simp +decide [tick, plot, Summary.entries, h.spelled_label]
  · exact .error _

end BoxPlot

/-! ### charts and grids -/

namespace BarChart

include h

/-- the name of the vertical axis is turned by a style of its own -/
theorem worded_yAxisName : Worded given (yAxisName params pen) := by
  have hturn : ∀ x y, Spelled given s!"rotate(-90 {tidy 2 x} {tidy 2 y})" := by
    intro x y
    simp +decide [toString]
  refine worded_when_iff.mpr fun _ => List.forall_mem_singleton.mpr
    (worded_label pen.places (worded_named (spelled_of_allowed (by decide))
      (spelled_of_allowed (by decide)) ?_) (h.spelled_label "yAxis") _ _)
  exact List.forall_mem_cons.mpr ⟨spelled_of_allowed (by decide),
    List.forall_mem_singleton.mpr (hturn _ _)⟩

omit h in
theorem worded_bar (yMax slot value : Float) {category : String}
    (hcategory : Spelled given category)
    (i : Nat) : Worded given (bar params pen yMax slot category value i) := by
  simp +decide [bar, hcategory]

theorem worded_scene : Gives (Scene.Worded given) (scene params pen) := by
  have hcategories := (h.spelled_text "categories").entries
  refine .ite (fun _ => .error _) fun _ => .bind fun values _ =>
    .pure (Scene.worded_mk (by decide) ?_)
  refine worded_append_iff.mpr ⟨worded_append_iff.mpr ⟨?title, ?axes⟩, ?bars⟩
  case title => exact pen.worded_label (spelled_of_allowed (by decide)) (h.spelled_label "title") _
  case axes => simp +decide [axes, stepMark, h.spelled_label, worded_yAxisName params pen h]
  case bars =>
    refine worded_group_iff.mpr ⟨spelled_of_allowed (by decide),
      worded_flatMap_iff.mpr fun e he => ?_⟩
    have hpair := (List.of_mem_zip (List.fst_mem_of_mem_zipIdx he)).1
    exact worded_bar params pen _ _ _ (hcategories _ hpair) _

end BarChart

namespace CoordinateGrid

include h

/-- a position is drawn with its label, or else with its name -/
theorem worded_plot (f : Frame) {name : String} (hname : Spelled given name) (position : Position) :
    Worded given (plot params pen f name position).1 := by
  have htext : ∀ p, Spelled given (plotText params name p) := by
    intro p
    have hlabel : Spelled given ((params.labels.get? name).getD name) := by
      cases hget : params.labels.get? name with
      | none => exact hname
      | some s => exact h.label name s hget
    unfold plotText
    dsimp only
    split
    · simp +decide [pairText, hlabel]
    · exact hlabel
  unfold plot
  split
  · exact worded_nil
  · split
    · exact worded_nil
    · simp +decide [hname, htext]

theorem worded_scene : Gives (Scene.Worded given) (scene params pen) := by
  refine .bind fun xMin _ => .bind fun xMax _ => .bind fun yMin _ => .bind fun yMax _ =>
    .bind fun step _ => ?_
  refine .ite (fun _ => .error _) fun _ => .ite (fun _ => .error _) fun _ => ?_
  dsimp only
  split
  · split
    · refine .pure (Scene.worded_mk (by decide) ?_)
      refine worded_append_iff.mpr ⟨worded_append_iff.mpr ⟨?grid, ?axes⟩, ?points⟩
      case grid => simp +decide [gridLines]
      case axes => simp +decide [axes, tickLabels, h.spelled_label]
      case points =>
        refine worded_group_iff.mpr ⟨spelled_of_allowed (by decide), ?_⟩
        rw [List.flatMap_map]
        exact worded_flatMap_iff.mpr fun e he => worded_plot params pen h _ (h.position e he) e.2
    · exact .error _
  · exact .error _

end CoordinateGrid

namespace SeriesCircuit

include h

theorem worded_scene : Gives (Scene.Worded given) (scene params pen) := by
  have hcell : ∀ voltage, Spelled given
      (if params.label "cell" = "" then tidy 2 voltage ++ " V" else params.label "cell") := by
    intro voltage
    split
    · simp +decide
    · exact h.spelled_label "cell"
  refine .bind fun voltage _ => .bind fun rs _ => .ite (fun _ => .error _) fun _ =>
    .pure (Scene.worded_mk (by decide) ?_)
  simp +decide [resistor, cell, currentMark, hcell]

end SeriesCircuit

/-! ### all figures -/

/-- a figure writes numbers, words of its own, and those of its parameters -/
theorem FigureKind.worded_scene (k : FigureKind) (h : params.Worded given) :
    Gives (Scene.Worded given) (k.scene params pen) := by
  cases k with
  | coordinateGrid => exact CoordinateGrid.worded_scene params pen h
  | numberLine => exact NumberLine.worded_scene params pen h
  | triangle => exact Triangle.worded_scene params pen h
  | rectangle => exact Rectangle.worded_scene params pen h
  | circle => exact Circle.worded_scene params pen h
  | angle => exact Angle.worded_scene params pen h
  | cuboid => exact Cuboid.worded_scene params pen h
  | cylinder => exact Cylinder.worded_scene params pen h
  | barChart => exact BarChart.worded_scene params pen h
  | boxPlot => exact BoxPlot.worded_scene params pen h
  | seriesCircuit => exact SeriesCircuit.worded_scene params pen h

end Figures
