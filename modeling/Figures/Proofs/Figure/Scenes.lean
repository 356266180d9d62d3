import Figures.Figure.Kind
import Figures.Proofs.Sheet.Drawn

/-!
# The scenes of the figures

* `Scene.Styled`                a scene whose drawing is put together of groups, elements and labels
* `Draws x`                     every scene that comes of `x` is one
* `FigureKind.scene`            the drawing function of a kind of figure
* `FigureKind.draws_scene`      it makes such scenes
* `FigureKind.styled_of_draw`   what a figure draws is such a scene
-/

namespace Figures

open Markup

/-- a scene whose drawing is put together of groups, elements and labels -/
def Scene.Styled (s : Scene) : Prop := Drawn Named Named s.drawing

/-- every scene that comes of a drawing function is put together of groups, elements and labels -/
def Draws (x : Except TemplateError Scene) : Prop := ∀ s, x = .ok s → s.Styled

namespace Draws

theorem ok {s : Scene} (h : s.Styled) : Draws (.ok s) := by
  intro t ht
  cases ht
  exact h

theorem pure {s : Scene} (h : s.Styled) : Draws (Pure.pure s) := ok h

theorem error (e : TemplateError) : Draws (.error e) := by
  intro s hs
  cases hs

theorem bind {α : Type} {x : Except TemplateError α} {f : α → Except TemplateError Scene}
    (h : ∀ a, Draws (f a)) : Draws (x >>= f) := by
  cases x with
  | error e => exact error e
  | ok a => exact h a

theorem ite {c : Prop} [Decidable c] {x y : Except TemplateError Scene} (hx : Draws x)
    (hy : Draws y) : Draws (if c then x else y) := by
  split
  · exact hx
  · exact hy

end Draws

variable (params : Params) (pen : Pen)

/-! ### circles and angles -/

namespace Circle

@[simp] theorem drawn_diameterMark {S L : List Attr → Prop} (content : String) :
    Drawn S L (diameterMark pen content) := (pen.drawn_segment _ _ _).append
      (pen.drawn_text _ _ _ _ _)

@[simp] theorem drawn_radiusMark {S L : List Attr → Prop} (content : String) (angle : Float) :
    Drawn S L (radiusMark pen content angle) :=
  (pen.drawn_segment _ _ _).append (pen.drawn_text _ _ _ _ _)

theorem draws_scene : Draws (scene params pen) := by
  refine .bind fun radius => .pure ?_
  have hcircle : Drawn Named Named
      [.circle pen.places (Element.path.look "circle" Cls.line) center drawnRadius] :=
    drawn_circle pen.places rfl (.inl rfl) center drawnRadius
  refine ((hcircle.append ?_).append ?_).append ?_ <;> simp

end Circle

namespace Cylinder

theorem draws_scene : Draws (scene params pen) := by
  refine .bind fun radius => .bind fun rise => .pure ?_
  refine .append (.append (.append (.append (.append (.append ?top ?_) ?_) ?_) ?_) (.when ?_ _)) ?_
  case top => exact drawn_ellipse pen.places rfl (.inl rfl) _ _ _
  all_goals simp

end Cylinder

namespace Angle

theorem draws_scene : Draws (scene params pen) := by
  refine .bind fun x => .pure ?_
  refine .append (.append (.append (.append (.append ?_ ?_) (.ite _ ?_ ?_)) ?_) ?_) (.when ?_ _)
  all_goals simp

end Angle

/-! ### figures with corners -/

namespace Cuboid

theorem draws_scene : Draws (scene params pen) := by
  refine .bind fun length => .bind fun depth => .bind fun rise => .pure ?_
  refine .append (.append (.append ?faces ?hidden) ?dimensions) ?vertices
  case faces => exact .group (.append (.append (by simp) (by simp)) (by simp)) _
  case hidden => exact .when (.group (.append (.append (by simp) (by simp)) (by simp)) _) _
  case dimensions => exact .when (.group (.append (.append (by simp) (by simp)) (by simp)) _) _
  case vertices =>
    refine .when (.group ?_ _) _
    apply_rules [Drawn.append, Pen.drawn_label]

end Cuboid

namespace Rectangle

@[simp] theorem drawn_rightMark {S L : List Attr → Prop} (k : Corner) :
    Drawn S L (rightMark pen k) := pen.drawn_rightAngle _ _ _ _ _

@[simp] theorem drawn_vertexMark {S L : List Attr → Prop} (center : Point) (k : Corner) :
    Drawn S L (vertexMark params pen center k) :=
  (pen.drawn_dot _ _).append ((pen.drawn_label _ _ _).when _)

theorem draws_scene : Draws (scene params pen) := by
  refine .bind fun w => .bind fun h => .pure ?_
  refine .append (.append (.append (.append (.append ?sides ?diagonal) ?right) ?equal) ?dimensions)
    ?vertices
  case sides =>
    refine .group ?_ _
    apply_rules [Drawn.append, Pen.drawn_segment]
  case diagonal => exact .when ((pen.drawn_hiddenSegment _ _ _).append
    (pen.drawn_sideLabel _ _ _ _ _)) _
  case right => exact .when (.group (.flatMap fun k _ => drawn_rightMark pen k) _) _
  case equal =>
    refine .when (.group ?_ _) _
    apply_rules [Drawn.append, Pen.drawn_equalTicks]
  case dimensions =>
    exact .when (.group ((pen.drawn_sideLabel _ _ _ _ _).append
      (pen.drawn_sideLabel _ _ _ _ _)) _) _
  case vertices => exact .group (.flatMap fun k _ => drawn_vertexMark params pen _ k) _

end Rectangle

namespace Triangle

@[simp] theorem drawn_angleMark {S L : List Attr → Prop} (name : String) (vertex p q : Point) :
    Drawn S L (angleMark params pen name vertex p q) :=
  .ite _ (pen.drawn_rightAngle _ _ _ _ _)
    (.ite _ ((pen.drawn_arc _ _).append (pen.drawn_arcLabel _ _ _ _)) drawn_nil)

@[simp] theorem drawn_vertexMark {S L : List Attr → Prop} (center : Point) (name : String)
    (p : Point) : Drawn S L (vertexMark params pen center name p) :=
  (pen.drawn_dot _ _).append ((pen.drawn_label _ _ _).when _)

theorem draws_scene : Draws (scene params pen) := by
  refine .bind fun a => .bind fun b => .bind fun c => .bind fun corners => .pure ?_
  refine .append (.append (.append ?sides ?angles) ?lengths) ?vertices
  case sides => exact .group (.append (.append (by simp) (by simp)) (by simp)) _
  case angles => exact .group (.append (.append (by simp) (by simp)) (by simp)) _
  case lengths => exact .when (.group (.append (.append (by simp) (by simp)) (by simp)) _) _
  case vertices => exact .group (.append (.append (by simp) (by simp)) (by simp)) _

end Triangle

/-! ### lines of numbers -/

namespace NumberLine

theorem drawn_tick {S L : List Attr → Prop} (v x : Float) : Drawn S L (tick params pen v x) :=
  (pen.drawn_rule _ _ _ _).append ((pen.drawn_text _ _ _ _ _).when _)

theorem drawn_axis {S L : List Attr → Prop} : Drawn S L (axis params pen) :=
  (pen.drawn_rule _ _ _ _).append
    (((pen.drawn_polygon _ _ _ _).append (pen.drawn_polygon _ _ _ _)).when _)

/-- the shading and the open point have a style of their own -/
theorem drawn_marked (shade : Shade) (p : Point) :
    Drawn Named Named (marked params pen shade p) := by
  refine .append (.append ?shading ?point) (pen.drawn_label _ _ _)
  case shading =>
    split
    · exact drawn_line pen.places rfl (.inr (by decide : Named [⟨"stroke-width", "5"⟩])) _ _
    · exact drawn_nil
  case point =>
    refine drawn_circle pen.places rfl ?_ _ _
    dsimp only
    split
    · exact .inr (by decide)
    · exact .inl rfl

theorem draws_scene : Draws (scene params pen) := by
  refine .bind fun lo => .bind fun hi => .bind fun step => .bind fun shade => ?_
  have hline : ∀ (marks : List Float) (xOf : Float → Float), Drawn Named Named
      (axis params pen ++ Pen.group "ticks" (marks.flatMap fun v => tick params pen v (xOf v))) :=
    fun marks xOf => (drawn_axis params pen).append
      (.group (.flatMap fun v _ => drawn_tick params pen v (xOf v)) _)
  refine .ite (.bind fun _ => ?_) ?_
  all_goals
    dsimp only
    split
    · refine .ite (.bind fun v => .ite ?_ ?_) ?_
      · exact .pure (hline _ _)
      · exact .pure ((hline _ _).append (drawn_marked params pen shade _))
      · exact .pure (hline _ _)
    · exact .error _

end NumberLine

namespace BoxPlot

theorem drawn_tick {S L : List Attr → Prop} (v x : Float) : Drawn S L (tick pen v x) :=
  (pen.drawn_rule _ _ _ _).append (pen.drawn_text _ _ _ _ _)

theorem drawn_plot {S L : List Attr → Prop} (s : Summary) (xOf : Float → Float) :
    Drawn S L (plot pen s xOf) := by
  have hbox : ∀ (corner : Point) (w h : Float), Drawn S L
      [.rect pen.places (Element.bar.look "box" Cls.bar) corner w h] :=
    fun corner w h => drawn_rect pen.places rfl (.inl rfl) corner w h
  unfold plot
  apply_rules [Drawn.append, Pen.drawn_segment]

theorem draws_scene : Draws (scene params pen) := by
  refine .bind fun s => .bind fun lo => .bind fun hi => .bind fun step => ?_
  refine .ite (.bind fun _ => ?_) ?_
  all_goals
    dsimp only
    split
    · refine .pure (.append (.append (.append (pen.drawn_label _ _ _) ?axis) ?plot) ?values)
      case axis =>
        exact .group ((pen.drawn_rule _ _ _ _).append (.flatMap fun v _ => drawn_tick pen v _)) _
      case plot => exact .group (drawn_plot pen s _) _
      case values => exact .when (.group (.flatMap fun e _ => pen.drawn_text _ _ _ _ _) _) _
    · exact .error _

end BoxPlot

/-! ### charts and grids -/

namespace BarChart

theorem drawn_stepMark {S L : List Attr → Prop} (yMax step : Float) (i : Nat) :
    Drawn S L (stepMark params pen yMax step i) :=
  .append ((pen.drawn_rule _ _ _ _).when _) (pen.drawn_text _ _ _ _ _)

/-- the name of the vertical axis is turned by a style of its own -/
theorem drawn_yAxisName : Drawn Named Named (yAxisName params pen) := by
  refine .when (drawn_label rfl (.inr fun a ha => ?_)) _
  obtain rfl := List.mem_singleton.mp ha
  decide

theorem drawn_axes (yMax step : Float) : Drawn Named Named (axes params pen yMax step) :=
  .append (.append (.append (.append (.flatMap fun i _ => drawn_stepMark params pen yMax step i)
    (pen.drawn_rule _ _ _ _)) (pen.drawn_rule _ _ _ _)) (pen.drawn_text _ _ _ _ _))
    (drawn_yAxisName params pen)

theorem drawn_bar {S L : List Attr → Prop} (yMax slot : Float) (category : String) (value : Float)
    (i : Nat) : Drawn S L (bar params pen yMax slot category value i) := by
  refine .append (.append ?rect (pen.drawn_text _ _ _ _ _)) ((pen.drawn_text _ _ _ _ _).when _)
  case rect => exact drawn_rect pen.places rfl (.inl rfl) _ _ _

theorem draws_scene : Draws (scene params pen) := by
  unfold scene
  refine .ite (.bind fun _ => ?_) ?_
  all_goals
    refine .bind fun values => .pure (.append (.append (pen.drawn_label _ _ _) ?axes) ?bars)
    case axes => exact .group (drawn_axes params pen _ _) _
    case bars => exact .group (.flatMap fun e _ => drawn_bar params pen _ _ _ _ _) _

end BarChart

namespace CoordinateGrid

theorem drawn_gridLines {S L : List Attr → Prop} (f : Frame) (xs ys : List Float) :
    Drawn S L (gridLines pen f xs ys) :=
  .append (.flatMap fun _ _ => pen.drawn_rule _ _ _ _) (.flatMap fun _ _ => pen.drawn_rule _ _ _ _)

theorem drawn_tickLabels {S L : List Attr → Prop} (f : Frame) (xs ys : List Float) :
    Drawn S L (tickLabels pen f xs ys) :=
  .append (.flatMap fun _ _ => pen.drawn_text _ _ _ _ _)
    (.flatMap fun _ _ => pen.drawn_text _ _ _ _ _)

theorem drawn_axes {S L : List Attr → Prop} (f : Frame) : Drawn S L (axes params pen f) :=
  .append (.append ((pen.drawn_rule _ _ _ _).append (pen.drawn_rule _ _ _ _))
    (pen.drawn_text _ _ _ _ _)) (pen.drawn_text _ _ _ _ _)

theorem drawn_plot {S L : List Attr → Prop} (f : Frame) (name : String) (given : Position) :
    Drawn S L (plot params pen f name given).1 := by
  unfold plot
  split
  · exact drawn_nil
  · split
    · exact drawn_nil
    · exact (pen.drawn_dot _ _).append (pen.drawn_text _ _ _ _ _)

theorem draws_scene : Draws (scene params pen) := by
  refine .bind fun xMin => .bind fun xMax => .bind fun yMin => .bind fun yMax =>
    .bind fun step => ?_
  have hscene : ∀ (f : Frame) (xs ys : List Float), Drawn Named Named
      (Drawing.when (params.visible "showGrid") (Pen.group "grid" (gridLines pen f xs ys)) ++
        Drawing.when (params.visible "showAxes")
          (Pen.group "axes"
            (axes params pen f ++
              Drawing.when (params.visible "showTickLabels") (tickLabels pen f xs ys))) ++
        Pen.group "points"
          ((params.positions.entries.map fun e => plot params pen f e.1 e.2).flatMap
            Prod.fst)) := by
    intro f xs ys
    refine .append (.append ?grid ?axes) ?points
    case grid => exact .when (.group (drawn_gridLines pen f xs ys) _) _
    case axes =>
      exact .when (.group ((drawn_axes params pen f).append
        ((drawn_tickLabels pen f xs ys).when _)) _) _
    case points =>
      refine .group (.flatMap fun plot hplot => ?_) _
      obtain ⟨e, _, rfl⟩ := List.mem_map.mp hplot
      exact drawn_plot params pen f e.1 e.2
  -- either check of the bounds may fail before the ticks are counted
  refine .ite (.bind fun _ => .ite (.bind fun _ => ?_) ?_) (.ite (.bind fun _ => ?_) ?_)
  all_goals
    dsimp only
    split
    · split
      · exact .pure (hscene _ _ _)
      · exact .error _
    · exact .error _

end CoordinateGrid

namespace SeriesCircuit

theorem drawn_resistor {S L : List Attr → Prop} (slot r : Float) (i : Nat) :
    Drawn S L (resistor params pen slot r i) :=
  .append ((pen.drawn_segment _ _ _).append (pen.drawn_path _ _ _ _))
    ((pen.drawn_text _ _ _ _ _).when _)

theorem drawn_cell {S L : List Attr → Prop} (voltage : Float) :
    Drawn S L (cell params pen voltage) := by
  unfold cell
  apply_rules [Drawn.append, Pen.drawn_segment, Pen.drawn_text]

theorem drawn_currentMark {S L : List Attr → Prop} (current : Float) :
    Drawn S L (currentMark pen current) :=
  (pen.drawn_polygon _ _ _ _).append (pen.drawn_text _ _ _ _ _)

theorem draws_scene : Draws (scene params pen) := by
  refine .bind fun voltage => .bind fun rs => ?_
  refine .ite (.bind fun _ => ?_) ?_
  all_goals
    refine .pure ?_
    refine .append (.append (.append (.append ?resistors ?right) ?cell) ?left) ?current
    case resistors =>
      exact .group (.append (.flatMap fun e _ => drawn_resistor params pen _ _ _)
        (pen.drawn_segment _ _ _)) _
    case right => exact pen.drawn_segment _ _ _
    case cell => exact .group (drawn_cell params pen voltage) _
    case left => exact pen.drawn_segment _ _ _
    case current => exact (drawn_currentMark pen _).when _

end SeriesCircuit

/-! ### all figures -/

namespace FigureKind

def scene [Platform] : FigureKind → Params → Pen → Except TemplateError Scene
  | coordinateGrid => CoordinateGrid.scene
  | numberLine => NumberLine.scene
  | triangle => Triangle.scene
  | rectangle => Rectangle.scene
  | circle => Circle.scene
  | angle => Angle.scene
  | cuboid => Cuboid.scene
  | cylinder => Cylinder.scene
  | barChart => BarChart.scene
  | boxPlot => BoxPlot.scene
  | seriesCircuit => SeriesCircuit.scene

theorem draw_template [Platform] (k : FigureKind) (ctx : Context) :
    k.template.draw params ctx = match k.scene params (Pen.of ctx) with
      | .ok s => .drawn (s.image ctx)
      | .error err => .failed err := by
  cases k <;> rfl

theorem draws_scene (k : FigureKind) : Draws (k.scene params pen) := by
  cases k with
  | coordinateGrid => exact CoordinateGrid.draws_scene params pen
  | numberLine => exact NumberLine.draws_scene params pen
  | triangle => exact Triangle.draws_scene params pen
  | rectangle => exact Rectangle.draws_scene params pen
  | circle => exact Circle.draws_scene params pen
  | angle => exact Angle.draws_scene params pen
  | cuboid => exact Cuboid.draws_scene params pen
  | cylinder => exact Cylinder.draws_scene params pen
  | barChart => exact BarChart.draws_scene params pen
  | boxPlot => exact BoxPlot.draws_scene params pen
  | seriesCircuit => exact SeriesCircuit.draws_scene params pen

/-- what a figure draws is put together of groups, elements and labels -/
theorem styled_of_draw {k : FigureKind} {params : Params} {ctx : Context} {image : Image}
    (h : k.template.draw params ctx = .drawn image) : ∃ s : Scene, s.Styled ∧
      image = s.image ctx := by
  rw [draw_template] at h
  split at h
  · rename_i s hs
    cases h
    exact ⟨s, draws_scene params (Pen.of ctx) k s hs, rfl⟩
  · cases h

end FigureKind

end Figures
