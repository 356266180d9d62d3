import Figures.Proofs.Attempt.Formula
import Figures.Proofs.Attempt.Room

/-!
# Drawing does not abort

* `Triangle.attempt`        the corners are taken from the fitted list by their places
* `CoordinateGrid.attempt`  the crossing of the axes is kept between bounds that the caller chose
* `BarChart.attempt`        the lines of the axis are drawn as long as there is room
* `FigureKind.attempt`      the drawing function of a kind, as it works
* `Subject.attempt`         the drawing of a shape, as it works
* `FigureKind.attempt_eq`, `Subject.attempt_eq`   no shape aborts, and no figure with an end
* `never_aborts`            nor does a formula
* `large_chart_aborts`      the chart of a frequency among the largest has no end

Of the eleven figures six have no step that could abort, and of the shapes all but the strokes
across a line, whose number is kept between one and five.
-/

namespace Figures

/-! ### corners from a list -/

namespace Triangle

variable [Platform] (params : Params) (pen : Pen)

/-- the vertices, their angle from a cosine kept between `-1` and `1` -/
def attemptCorners (a b c : Float) : Attempt TemplateError (Point × Point × Point) :=
  if a + b ≤ c || a + c ≤ b || b + c ≤ a then
    throw (.geometry s!"sides {plain a}, {plain b}, {plain c} cannot form a triangle")
  else do
    let kept ← Attempt.clamp (-1.0) 1.0 ((b * b + c * c - a * a) / (2.0 * b * c))
    let alpha := arccosine kept
    return (Point.origin, ⟨c, 0.0⟩, ⟨b * cosine alpha, b * sine alpha⟩)

/-- the scene, the corners taken from the fitted list -/
def attempt : Attempt TemplateError Scene := do
  let a ← Attempt.of (params.positive "a")
  let b ← Attempt.of (params.positive "b")
  let c ← Attempt.of (params.positive "c")
  let unit := params.text "unit"
  let (ma, mb, mc) ← attemptCorners a b c
  let fitted := fit epsilon width height 70.0 [ma, mb, mc]
  let pa ← Attempt.item fitted 0
  let pb ← Attempt.item fitted 1
  let pc ← Attempt.item fitted 2
  let center := Point.centroid fitted
  let sideText (name : String) (length : Float) (p q : Point) : Drawing :=
    pen.sideLabel ("side-" ++ name) (params.labelOr name (Template.measure length unit)) p q center
  return {
    width, height, root := "triangle",
    drawing :=
      Pen.group "sides"
        (pen.segment "AB" pa pb ++ pen.segment "BC" pb pc ++ pen.segment "CA" pc pa) ++
      Pen.group "angles"
        (angleMark params pen "A" pa pb pc ++ angleMark params pen "B" pb pc pa ++
          angleMark params pen "C" pc pa pb) ++
      Drawing.when (params.visible "showSideLengths")
        (Pen.group "side-lengths"
          (sideText "c" c pa pb ++ sideText "a" a pb pc ++ sideText "b" b pc pa)) ++
      Pen.group "vertices"
        (vertexMark params pen center "A" pa ++ vertexMark params pen center "B" pb ++
          vertexMark params pen center "C" pc) }

theorem attemptCorners_eq (a b c : Float) : attemptCorners a b c = .of (corners a b c) := by
  have hbounds : (-1.0 : Float) ≤ 1.0 := by decide
  rw [attemptCorners, corners, Attempt.clamp_eq hbounds]
  split <;> rfl

/-- three points are fitted, and three are taken -/
theorem attempt_eq : attempt params pen = .of (scene params pen) := by
  rw [attempt, scene]
  refine Attempt.of_bind fun a _ => Attempt.of_bind fun b _ => Attempt.of_bind fun c _ => ?_
  rw [attemptCorners_eq]
  exact Attempt.of_bind fun model _ => rfl

end Triangle

namespace Rectangle

variable [Platform] (params : Params) (pen : Pen)

/-- the scene, the corners taken from the fitted list -/
def attempt : Attempt TemplateError Scene := do
  let w ← Attempt.of (params.positive "width")
  let h ← Attempt.of (params.positive "height")
  let unit := params.text "unit"
  let fitted := fit epsilon width height 70.0 [Point.origin, ⟨w, 0.0⟩, ⟨w, h⟩, ⟨0.0, h⟩]
  let a ← Attempt.item fitted 0
  let b ← Attempt.item fitted 1
  let c ← Attempt.item fitted 2
  let d ← Attempt.item fitted 3
  let center := Point.centroid fitted
  let corners : List Corner := [⟨"A", a, b, d⟩, ⟨"B", b, c, a⟩, ⟨"C", c, d, b⟩, ⟨"D", d, a, c⟩]
  let diagonal :=
    pen.hiddenSegment "AC" a c ++
      pen.sideLabel "diagonal" (params.labelOr "diagonal" (Template.measure (hypotenuse w h) unit))
        a (Point.lerp a c 0.35) d
  return {
    width, height, root := "rectangle",
    drawing :=
      Pen.group "sides"
        (pen.segment "AB" a b ++ pen.segment "BC" b c ++ pen.segment "CD" c d ++
          pen.segment "DA" d a) ++
      Drawing.when (params.visible "showDiagonal") diagonal ++
      Drawing.when (params.visible "showRightAngles")
        (Pen.group "right-angles" (corners.flatMap (rightMark pen))) ++
      Drawing.when (params.visible "showEqualSides")
        (Pen.group "equal-marks"
          (pen.equalTicks "AB" a b 1 ++ pen.equalTicks "CD" c d 1 ++ pen.equalTicks "BC" b c 2 ++
            pen.equalTicks "DA" d a 2)) ++
      Drawing.when (params.visible "showDimensions")
        (Pen.group "dimensions"
          (pen.sideLabel "width" (params.labelOr "width" (Template.measure w unit)) a b center ++
            pen.sideLabel "height" (params.labelOr "height" (Template.measure h unit)) b c
              center)) ++
      Pen.group "vertices" (corners.flatMap (vertexMark params pen center)) }

/-- four points are fitted, and four are taken -/
theorem attempt_eq : attempt params pen = .of (scene params pen) := by
  rw [attempt, scene]
  exact Attempt.of_bind fun w _ => Attempt.of_bind fun h _ => rfl

end Rectangle

/-! ### bounds from the caller -/

namespace CoordinateGrid

variable (params : Params) (pen : Pen)

/-- where the axes cross: zero, kept between the edges -/
def Frame.attemptCrossing (f : Frame) : Attempt TemplateError Point := do
  let x ← Attempt.clamp f.xMin f.xMax 0.0
  let y ← Attempt.clamp f.yMin f.yMax 0.0
  return ⟨x, y⟩

/-- the scene; the axes are drawn through the crossing that was found -/
def attempt : Attempt TemplateError Scene := do
  let xMin ← Attempt.of (params.required "xMin")
  let xMax ← Attempt.of (params.required "xMax")
  let yMin ← Attempt.of (params.required "yMin")
  let yMax ← Attempt.of (params.required "yMax")
  let step ← Attempt.of (params.positive "step")
  if xMax ≤ xMin then throw (.invalid "xMax" "must be greater than xMin")
  if yMax ≤ yMin then throw (.invalid "yMax" "must be greater than yMin")
  let some xs := Template.ticks xMin xMax step tickLimit
    | throw (.invalid "step" s!"too small for the range (at most {tickLimit} ticks)")
  let some ys := Template.ticks yMin yMax step tickLimit
    | throw (.invalid "step" s!"too small for the range (at most {tickLimit} ticks)")
  let f : Frame := ⟨xMin, xMax, yMin, yMax⟩
  let o ← f.attemptCrossing
  let xEnd := f.place f.xMax o.y
  let yEnd := f.place o.x f.yMax
  let axes : Drawing :=
    pen.rule "x-axis" (f.place f.xMin o.y) xEnd Cls.axis ++
      pen.rule "y-axis" (f.place o.x f.yMin) yEnd Cls.axis ++
      pen.text "x-axis" (params.label "xAxis") ⟨xEnd.x + 14.0, xEnd.y⟩ .start Cls.text ++
      pen.text "y-axis" (params.label "yAxis") ⟨yEnd.x, yEnd.y - 16.0⟩ .middle Cls.text
  let tickLabels : Drawing :=
    ((xs.filter (· != o.x)).flatMap fun x =>
      pen.text ("tick-x" ++ tidy 2 x) (tidy 2 x) ((f.place x o.y).shift 0.0 14.0) .middle
        Cls.sideText) ++
    ((ys.filter (· != o.y)).flatMap fun y =>
      let p := f.place o.x y
      pen.text ("tick-y" ++ tidy 2 y) (tidy 2 y) ⟨p.x - 8.0, p.y⟩ .finish Cls.sideText)
  let plots := params.positions.entries.map fun e => plot params pen f e.1 e.2
  return {
    width := size, height := size, root := "coordinate-grid",
    drawing :=
      Drawing.when (params.visible "showGrid") (Pen.group "grid" (gridLines pen f xs ys)) ++
      Drawing.when (params.visible "showAxes")
        (Pen.group "axes" (axes ++ Drawing.when (params.visible "showTickLabels") tickLabels)) ++
      Pen.group "points" (plots.flatMap Prod.fst),
    warnings := plots.flatMap Prod.snd }

theorem Frame.attemptCrossing_eq {f : Frame} (hx : f.xMin ≤ f.xMax) (hy : f.yMin ≤ f.yMax) :
    f.attemptCrossing = pure f.crossing := by
  rw [attemptCrossing, Attempt.clamp_eq hx, Attempt.clamp_eq hy]
  rfl

/-- the ticks are counted first, so the edges are in order when the axes are drawn -/
theorem attempt_eq : attempt params pen = .of (scene params pen) := by
  rw [attempt, scene]
  refine Attempt.of_bind fun xMin _ => Attempt.of_bind fun xMax _ => Attempt.of_bind fun yMin _ =>
    Attempt.of_bind fun yMax _ => Attempt.of_bind fun step _ => ?_
  by_cases hx : xMax ≤ xMin
  · rw [if_pos hx, if_pos hx]
    rfl
  by_cases hy : yMax ≤ yMin
  · rw [if_neg hx, if_neg hx, if_pos hy, if_pos hy]
    rfl
  rw [if_neg hx, if_neg hx, if_neg hy, if_neg hy]
  cases hxs : Template.ticks xMin xMax step tickLimit with
  | none => rfl
  | some xs =>
    cases hys : Template.ticks yMin yMax step tickLimit with
    | none => rfl
    | some ys =>
      have hcrossing : Frame.attemptCrossing ⟨xMin, xMax, yMin, yMax⟩ = pure _ :=
        Frame.attemptCrossing_eq (Template.le_of_ticks hxs) (Template.le_of_ticks hys)
      dsimp only
      rw [hcrossing]
      rfl

end CoordinateGrid

namespace BoxPlot

variable (params : Params) (pen : Pen)

/-- whiskers with their caps, box and median, from the places of the five numbers -/
def plotAt (pen : Pen) (min q1 median q3 max : Float) : Drawing :=
  let middle := boxTop + boxHeight / 2.0
  let bottom := boxTop + boxHeight
  let cap (name : String) (x : Float) : Drawing :=
    pen.segment name ⟨x, boxTop + 15.0⟩ ⟨x, bottom - 15.0⟩
  pen.segment "whisker-low" ⟨min, middle⟩ ⟨q1, middle⟩ ++
    pen.segment "whisker-high" ⟨q3, middle⟩ ⟨max, middle⟩ ++
    cap "cap-min" min ++ cap "cap-max" max ++
    [.rect pen.places (Element.bar.look "box" Cls.bar) ⟨q1, boxTop⟩ (q3 - q1) boxHeight] ++
    pen.segment "median" ⟨median, boxTop⟩ ⟨median, bottom⟩

/-- the place of a value, kept between the ends of the axis -/
def attemptPlace (lo hi scale v : Float) : Attempt TemplateError Float := do
  let kept ← Attempt.clamp lo hi v
  return margin + (kept - lo) * scale

/-- the scene; each value that is drawn is kept between the ends of the axis -/
def attempt : Attempt TemplateError Scene := do
  let s ← Attempt.of (Summary.ofParams params)
  let lo ← Attempt.of (params.required "axisMin")
  let hi ← Attempt.of (params.required "axisMax")
  let step ← Attempt.of (params.positive "step")
  if hi ≤ lo then throw (.invalid "axisMax" "must be greater than axisMin")
  let some marks := Template.ticks lo hi step tickLimit
    | throw (.invalid "step" "too small for the axis range")
  let place := attemptPlace lo hi ((width - 2.0 * margin) / (hi - lo))
  let ticks ← marks.mapM fun v => do
    let x ← place v
    return tick pen v x
  let min ← place s.min
  let q1 ← place s.q1
  let median ← place s.median
  let q3 ← place s.q3
  let max ← place s.max
  let values ← s.entries.mapM fun e => do
    let x ← place e.2
    return pen.text e.1 (tidy 2 e.2) ⟨x, boxTop - 12.0⟩ .middle Cls.sideText
  return {
    width, height, root := "box-plot",
    drawing :=
      pen.label "title" (params.label "title") ⟨width / 2.0, 26.0⟩ ++
      Pen.group "axis"
        (pen.rule "axis" ⟨margin, axisY⟩ ⟨width - margin, axisY⟩ Cls.axis ++ ticks.flatten) ++
      Pen.group "plot" (plotAt pen min q1 median q3 max) ++
      Drawing.when (params.visible "showValues") (Pen.group "values" values.flatten),
    warnings :=
      if s.min < lo || hi < s.max then
        ["Summary extends beyond the axis range and is clipped"]
      else [] }

theorem attemptPlace_eq {lo hi : Float} (h : lo ≤ hi) (scale v : Float) :
    attemptPlace lo hi scale v = pure (margin + (clamp lo hi v - lo) * scale) := by
  rw [attemptPlace, Attempt.clamp_eq h]
  rfl

/-- the ticks are counted first, so the ends of the axis are in order when a value is placed -/
theorem attempt_eq : attempt params pen = .of (scene params pen) := by
  rw [attempt, scene]
  refine Attempt.of_bind fun s _ => Attempt.of_bind fun lo _ => Attempt.of_bind fun hi _ =>
    Attempt.of_bind fun step _ => ?_
  by_cases hbounds : hi ≤ lo
  · rw [if_pos hbounds, if_pos hbounds]
    rfl
  rw [if_neg hbounds, if_neg hbounds]
  cases hmarks : Template.ticks lo hi step tickLimit with
  | none => rfl
  | some marks =>
    have hplace := attemptPlace_eq (Template.le_of_ticks hmarks)
      ((width - 2.0 * margin) / (hi - lo))
    dsimp only
    simp only [hplace, pure_bind, Attempt.mapM_eq fun _ _ => rfl]
    rfl

end BoxPlot

/-! ### steps of a number -/

namespace BarChart

section
variable (params : Params) (pen : Pen)

/-- the lines, numbers and names of both axes, if there is room for the lines -/
def attemptAxes (top step : Float) : Attempt TemplateError Drawing := do
  let marks ← Attempt.steps (lineCount top step) (stepMark params pen top step)
  return marks ++
    pen.rule "x-axis" ⟨left, baseY⟩ ⟨left + plotWidth, baseY⟩ Cls.axis ++
    pen.rule "y-axis" ⟨left, baseY⟩ ⟨left, BarChart.top⟩ Cls.axis ++
    pen.text "x-axis" (params.label "xAxis") ⟨left + plotWidth / 2.0, height - 16.0⟩
    .middle Cls.text ++ yAxisName params pen

theorem attemptAxes_of_le {top step : Float} (h : lineCount top step ≤ capacity) :
    attemptAxes params pen top step = pure (axes params pen top step) := by
  rw [attemptAxes, Attempt.steps_of_le h]
  rfl

theorem attemptAxes_of_lt {top step : Float} (h : capacity < lineCount top step) :
    attemptAxes params pen top step = .abort (.room (lineCount top step)) := by
  rw [attemptAxes, Attempt.steps_of_lt h]
  rfl

end

variable [Platform] (params : Params) (pen : Pen)

/-- the scene; the axes are drawn line by line -/
def attempt : Attempt TemplateError Scene := do
  let categories := Text.entries (params.text "categories")
  if categories.isEmpty then
    throw (.invalid "categories" "at least one category is required")
  let values ← Attempt.of (frequencies (params.text "frequencies") categories.length)
  let largest := values.foldl greater 0.0
  let requested := (params.number? "yMax").getD 0.0
  let (yMax, step) := axis (if 0.0 < requested then requested else largest)
  let slot := plotWidth / Float.ofNat categories.length
  let axes ← attemptAxes params pen yMax step
  return {
    width, height, root := "bar-chart",
    drawing :=
      pen.label "title" (params.label "title") ⟨width / 2.0, BarChart.top / 2.0⟩ ++
      Pen.group "axes" axes ++
      Pen.group "bars"
        (((categories.zip values).zipIdx).flatMap fun e =>
          bar params pen yMax slot e.1.1 e.1.2 e.2),
    warnings :=
      if 0.0 < requested && requested < largest then
        [s!"yMax {tidy 2 requested} is below the largest frequency {tidy 2 largest}; bars are clipped"]
      else [] }

/-- an axis that does not overrun has ten lines at most -/
theorem attempt_eq [Platform.Sound] (hends : ¬ Endless params) :
    attempt params pen = .of (scene params pen) := by
  rw [attempt, scene]
  dsimp only
  by_cases hcategories : (Text.entries (params.text "categories")).isEmpty = true
  · rw [if_pos hcategories, if_pos hcategories]
    rfl
  rw [if_neg hcategories, if_neg hcategories]
  refine Attempt.of_bind fun values hvalues => ?_
  have hover : ¬ Overruns (demand ((params.number? "yMax").getD 0.0) values) _ := fun hover =>
    hends ⟨Bool.not_eq_true _ ▸ hcategories, values, hvalues, hover⟩
  have hlines := lineCount_le (demands_demand hvalues _).1 hover
  have haxes := attemptAxes_of_le params pen (hlines.trans (by decide))
  rw [demand] at haxes
  rw [haxes]
  rfl

/-- there is no room for the lines of an axis that overruns -/
theorem attempt_endless [Platform.Sound] (hends : Endless params) :
    attempt params pen = .abort (.room (word64 + 1)) := by
  obtain ⟨hcategories, values, hvalues, hover⟩ := hends
  have hlines := lineCount_of_overruns (demands_demand hvalues _).1 hover
  have haxes := attemptAxes_of_lt params pen (hlines ▸ (by decide : capacity < word64 + 1))
  rw [attempt]
  dsimp only
  rw [hcategories, if_neg Bool.false_ne_true, hvalues]
  rw [hlines, demand] at haxes
  show (attemptAxes params pen _ _ >>= _) = _
  rw [haxes]
  rfl

end BarChart

/-! ### all figures -/

namespace FigureKind

variable [Platform]

/-- the drawing function of a kind, with the steps that could abort -/
def attempt : FigureKind → Params → Pen → Attempt TemplateError Scene
  | triangle => Triangle.attempt
  | rectangle => Rectangle.attempt
  | coordinateGrid => CoordinateGrid.attempt
  | boxPlot => BoxPlot.attempt
  | barChart => BarChart.attempt
  | numberLine => fun params pen => .of (NumberLine.scene params pen)
  | circle => fun params pen => .of (Circle.scene params pen)
  | angle => fun params pen => .of (Angle.scene params pen)
  | cuboid => fun params pen => .of (Cuboid.scene params pen)
  | cylinder => fun params pen => .of (Cylinder.scene params pen)
  | seriesCircuit => fun params pen => .of (SeriesCircuit.scene params pen)

/-- no figure with an end aborts -/
theorem attempt_eq [Platform.Sound] (k : FigureKind) {params : Params} (hends : ¬ k.Endless params)
    (pen : Pen) : k.attempt params pen = .of (k.scene params pen) := by
  cases k with
  | triangle => exact Triangle.attempt_eq params pen
  | rectangle => exact Rectangle.attempt_eq params pen
  | coordinateGrid => exact CoordinateGrid.attempt_eq params pen
  | boxPlot => exact BoxPlot.attempt_eq params pen
  | barChart => exact BarChart.attempt_eq params pen fun hover => hends ⟨rfl, hover⟩
  | _ => rfl

/-- the others abort, though nothing is wrong with their parameters -/
theorem attempt_endless [Platform.Sound] {k : FigureKind} {params : Params}
    (hends : k.Endless params) (pen : Pen) : k.attempt params pen = .abort (.room (word64 + 1)) ∧
      ∃ s, k.scene params pen = .ok s ∧ word64 < s.drawing.length := by
  obtain ⟨rfl, hover⟩ := hends
  exact ⟨BarChart.attempt_endless params pen hover, BarChart.exists_scene_endless hover⟩

end FigureKind

/-! ### shapes -/

/-- reads the fields of a shape and writes on a canvas, with steps that may abort -/
abbrev AttemptEmitting := ExceptT ShapeError (StateT Stage (Except Abort))

namespace AttemptEmitting

variable {α β : Type}

/-- reading and writing that does not abort -/
def of (x : Emitting α) : AttemptEmitting α := ExceptT.mk fun stage => .ok (x.run.run stage)

theorem of_bind {x : Emitting α} {f : α → AttemptEmitting β} {g : α → Emitting β}
    (h : ∀ a, f a = of (g a)) : of x >>= f = of (x >>= g) := by
  obtain rfl : f = fun a => of (g a) := funext h
  funext stage
  show (of x >>= fun a => of (g a)).run.run stage = .ok ((x >>= g).run.run stage)
  rw [ExceptT.run_bind, StateT.run_bind, ExceptT.run_bind, StateT.run_bind]
  show (Except.ok (x.run.run stage) >>= _) = _
  rcases x.run.run stage with ⟨e | a, mid⟩ <;> rfl

/-- a step of an attempt, which leaves the stage as it is -/
def step (x : Attempt ShapeError α) : AttemptEmitting α := ExceptT.mk fun stage =>
    x.run.map (·, stage)

theorem step_pure (a : α) : step (pure a) = pure a := rfl

end AttemptEmitting

namespace Subject

open AttemptEmitting (of_bind)

variable [Platform] (s : Subject) (pen : Pen)

/-- strokes across a line, at least one and at most five -/
def attemptTickMark : AttemptEmitting Unit := do
  let a ← .of (s.point "from")
  let b ← .of (s.point "to")
  let t ← .of (s.numberOr "t" 0.5)
  let count ← .of (s.numberOr "count" 1.0)
  let size ← .of (s.numberOr "size" 10.0)
  let cls ← .of (s.cls Cls.equalMark)
  let style ← .of s.style
  let kept ← .step (Attempt.clamp 1.0 5.0 (wholeNearest count))
  .of (.put (.path pen.places (Element.mark.styled s.name cls style)
    (Path.ticks a b t (toCount word64 kept) size (size / 2.0))))

/-- a shape of some kind, with the steps that could abort -/
def attempt (kind : ShapeKind) : AttemptEmitting Unit :=
  match kind with
  | .tickMark => s.attemptTickMark pen
  | kind => .of (s.emit pen kind)

/-- no shape aborts -/
theorem attempt_eq (kind : ShapeKind) : s.attempt pen kind = .of (s.emit pen kind) := by
  cases kind with
  | tickMark =>
    have hbounds : (1.0 : Float) ≤ 5.0 := by decide
    refine of_bind fun a => of_bind fun b => of_bind fun t => of_bind fun count =>
      of_bind fun size => of_bind fun cls => of_bind fun style => ?_
    rw [Attempt.clamp_eq hbounds, AttemptEmitting.step_pure]
    rfl
  | _ => rfl

/-- a shape that is written adds a drawing of few pieces -/
theorem fits_emit (kind : ShapeKind) {stage stage' : Stage}
    (h : (s.emit pen kind).run.run stage = (.ok (), stage')) :
    ∃ d : Drawing, d.Fits 404 ∧ stage'.canvas = stage.canvas.draw d := by
  rw [s.emits_draw pen kind stage] at h
  rcases hr : (s.draw pen kind).run.run stage.notes with ⟨e | d, notes⟩
  · rw [hr] at h
    cases h
  · rw [hr] at h
    cases h
    exact ⟨d, s.fits_draw pen kind stage.notes d notes hr, rfl⟩

end Subject

/-- Nothing aborts while a picture is drawn, but for the lines of an axis that has no end. Each
figure comes to what its drawing function gives, for whatever parameters and in every context:
bounds are in order where a number is kept between them, no corner is taken from beyond the fitted
list, and there are not many more pieces than bars and positions. A bar chart is one of these up to
`1.4e308`; from `1.6e308` on its lines are more than a text has room for, though its parameters are
as good as others. The call of a helper with any number of proper arguments comes to its result, and
so do the text of a formula in every proper scope and the emitter of a shape of every kind, which
writes at most `404` pieces. -/
theorem never_aborts [Platform] [Platform.Sound] :
    (∀ (k : FigureKind) (params : Params) (ctx : Context), ¬ k.Endless params →
      k.attempt params (Pen.of ctx) = .of (k.scene params (Pen.of ctx)) ∧
        (∀ s, k.scene params (Pen.of ctx) = .ok s → s.drawing.Fits params.room) ∧
        ∀ reason, k.template.draw params ctx ≠ .aborted reason) ∧
    (∀ (k : FigureKind) (params : Params) (ctx : Context), k.Endless params →
      k.attempt params (Pen.of ctx) = .abort (.room (word64 + 1)) ∧
        ∃ s, k.scene params (Pen.of ctx) = .ok s ∧ word64 < s.drawing.length) ∧
    (∀ (params : Params) (values : List Float),
      (Text.entries (params.text "categories")).isEmpty = false →
      BarChart.frequencies (params.text "frequencies")
        (Text.entries (params.text "categories")).length = .ok values →
      ∀ m, m = BarChart.demand ((params.number? "yMax").getD 0.0) values →
        (m ≤ 1.4e308 → ¬ FigureKind.barChart.Endless params) ∧
        (1.6e308 ≤ m → m.isFinite = true → FigureKind.barChart.Endless params)) ∧
    (∀ (name : String) (args : List Json), (∀ v ∈ args, (Document.ofJson v).Proper) →
      attemptCall name args = .of (callHelper name args)) ∧
    (∀ scope : Scope, (Document.ofJson scope.values).Proper → ∀ source : String,
      scope.attempt source = .of (scope.evaluate source)) ∧
    ∀ (s : Subject) (kind : ShapeKind) (ctx : Context),
      s.attempt (Pen.of ctx) kind = .of (s.emit (Pen.of ctx) kind) ∧
        ∀ stage stage', (s.emit (Pen.of ctx) kind).run.run stage = (.ok (), stage') →
          ∃ d : Drawing, d.Fits 404 ∧ stage'.canvas = stage.canvas.draw d := by
  refine ⟨fun k params ctx hends => ⟨k.attempt_eq hends _, ?_, ?_⟩, ?_, ?_, ?_, ?_, ?_⟩
  · exact fun s hs => k.fits_scene hends hs
  · intro reason
    rw [k.draw_template]
    split <;> exact nofun
  · exact fun k params ctx hends => k.attempt_endless hends _
  · rintro params values hcategories hvalues m rfl
    have hnumber := (BarChart.demands_demand hvalues ((params.number? "yMax").getD 0.0)).1
    refine ⟨fun hle hends => ?_, fun hle hfinite => ?_⟩
    · exact BarChart.not_overruns hnumber hle
        ((BarChart.endless_iff hcategories hvalues).mp hends.2)
    · exact ⟨rfl, (BarChart.endless_iff hcategories hvalues).mpr
        (BarChart.overruns_of_le hle hfinite)⟩
  · exact fun name _ hargs => attemptCall_eq name hargs
  · exact fun _ hscope source => Scope.attempt_eq hscope source
  · exact fun s kind ctx => ⟨s.attempt_eq (Pen.of ctx) kind, fun _ _ =>
      s.fits_emit (Pen.of ctx) kind⟩

theorem proper_small {n : Int} (hlow : 0 ≤ n) (hhigh : n ≤ 7) :
    (Document.ofJson (.integer n)).Proper := by
  refine ⟨?_, hhigh.trans (by decide)⟩
  exact le_trans (by decide) hlow

theorem read_clamp :
    Formula.read (Text.trim "clamp(a, a, a)") =
      .ok (.call "clamp" [.path ["a"], .path ["a"], .path ["a"]]) := by
  cbv

/-- a chart of seven fits, seven is more than five by a call, and by a formula a number stays
between itself and itself -/
theorem never_aborts_seven : @Platform.Sound Platform.ideal ∧
    (¬ @FigureKind.Endless Platform.ideal .barChart (BarChart.single "7") ∧
      ∀ s, @FigureKind.scene Platform.ideal .barChart (BarChart.single "7") (Pen.of {}) = .ok s →
        s.drawing.Fits 203) ∧
    ((∀ v ∈ [Json.integer 7, .integer 0, .integer 5], (Document.ofJson v).Proper) ∧
      @attemptCall Platform.ideal "clamp" [.integer 7, .integer 0, .integer 5]
        = .of (.ok (.real 5.0))) ∧
    (Document.ofJson (.object [("a", .integer 7)])).Proper ∧
      @Scope.attempt Platform.ideal ⟨.object [("a", .integer 7)]⟩ "clamp(a, a, a)"
        = .of (.ok (.real 7.0)) := by
  let _ := Platform.ideal
  have hsound := Platform.sound_ideal
  obtain ⟨hfigure, -, hchart, hcall, hformula, -⟩ := never_aborts
  have hends : ¬ FigureKind.barChart.Endless (BarChart.single "7") := by
    have hvalues : BarChart.frequencies ((BarChart.single "7").text "frequencies")
        (Text.entries ((BarChart.single "7").text "categories")).length = .ok [7.0] := by decide
    exact (hchart (BarChart.single "7") [7.0] (by decide) hvalues _ rfl).1 (by decide +kernel)
  have hargs : ∀ v ∈ [Json.integer 7, .integer 0, .integer 5], (Document.ofJson v).Proper := by
    simp only [List.forall_mem_cons, List.not_mem_nil, false_implies, implies_true, and_true]
    exact ⟨proper_small (by decide) (by decide), proper_small (by decide) (by decide),
      proper_small (by decide) (by decide)⟩
  have hscope : (Document.ofJson (.object [("a", .integer 7)])).Proper :=
    Document.proper_ofJson_object.mpr
      ⟨(by decide : ["a"].Nodup), List.forall_mem_singleton.mpr
        (proper_small (by decide) (by decide))⟩
  refine ⟨hsound, ⟨hends, (hfigure .barChart _ {} hends).2.1⟩,
    ⟨hargs, (hcall "clamp" _ hargs).trans ?_⟩, hscope, (hformula ⟨_⟩ hscope _).trans ?_⟩
  · rfl
  · exact congrArg Attempt.of ((Scope.evaluate_eq_ok_iff read_clamp).mpr rfl)

/-- the chart of a frequency among the largest has no end, though its parameters are as good as
others -/
theorem large_chart_aborts : @Platform.Sound Platform.ideal ∧
    (@FigureKind.attempt Platform.ideal .barChart (BarChart.single "1.6e308") (Pen.of {})
      = .abort (.room (word64 + 1))) ∧
    ∃ s, @FigureKind.scene Platform.ideal .barChart (BarChart.single "1.6e308") (Pen.of {})
        = .ok s ∧
      word64 < s.drawing.length := by
  let _ := Platform.ideal
  have hsound := Platform.sound_ideal
  have hvalues : BarChart.frequencies ((BarChart.single "1.6e308").text "frequencies")
      (Text.entries ((BarChart.single "1.6e308").text "categories")).length = .ok [1.6e308] := by
    decide +kernel
  have hdemand : BarChart.demand (((BarChart.single "1.6e308").number? "yMax").getD 0.0) [1.6e308] =
      1.6e308 := by
    decide +kernel
  have hends : FigureKind.barChart.Endless (BarChart.single "1.6e308") := by
    refine ⟨rfl, (BarChart.endless_iff (by decide) hvalues).mpr ?_⟩
    rw [hdemand]
    exact BarChart.overruns_of_le (by decide +kernel) (by decide +kernel)
  exact ⟨hsound, FigureKind.attempt_endless hends _⟩

end Figures
