import Figures.Template.Basic

/-!
# The bar chart

* `BarChart.frequencies`   the numbers of a `;`-separated list, one for each category
* `BarChart.axis`          the top of an axis and its step: one, two or five times a power of ten
* `barChart`               the figure: title, axes, a bar for each category
-/

namespace Figures

namespace BarChart

variable [Numerals] [Platform]

def width : Float := 560.0
def height : Float := 400.0
def left : Float := 70.0
def right : Float := 30.0
def top : Float := 50.0
def bottom : Float := 60.0

def schema : Schema :=
  (({} : Schema)
    |>.label "title" { maxLength := some 60 }
    |>.label "xAxis" { preset := some "Category", maxLength := some 30 }
    |>.label "yAxis" { preset := some "Frequency", maxLength := some 30 }
    |>.value "categories" (ValueSpec.text "A;B;C;D" |>.needed)
    |>.value "frequencies" (ValueSpec.text "4;7;3;5" |>.needed)
    |>.value "yMax" { ValueSpec.number 0.0 with min := some 0.0 }
    |>.flag "showValues" false
    |>.flag "showGrid" true)

/-- one frequency: a finite number that is not negative -/
def frequency (item : String) : Except TemplateError Float :=
  match readNumber? item with
  | none => .error (.invalid "frequencies" s!"\"{item}\" is not a number")
  | some x =>
    if x < 0.0 || !x.isFinite then
      .error (.invalid "frequencies" s!"\"{item}\" must be a non-negative number")
    else .ok x

def frequencies (raw : String) (expected : Nat) : Except TemplateError (List Float) :=
  let items := Text.entries raw
  if items.length ≠ expected then
    .error (.invalid "frequencies" s!"expected {expected} values, got {items.length}")
  else items.mapM frequency

/-- a power of ten beside `x`, the one at or below it as far as the platform can tell -/
def decade (x : Float) : Float := power 10.0 (floor (logarithm x))

/-- the top of an axis that reaches `max`, and the step between its lines: the first of one, two,
five and ten times a power of ten that needs at most five lines -/
def axis (max : Float) : Float × Float :=
  if max ≤ 0.0 then (1.0, 1.0)
  else
    let raw := max / 5.0
    let magnitude := decade raw
    let steps := [1.0, 2.0, 5.0, 10.0].map (· * magnitude)
    let step := (steps.find? fun s => raw ≤ s).getD (10.0 * magnitude)
    (ceiling (max / step) * step, step)

def plotWidth : Float := width - left - right
def plotHeight : Float := height - top - bottom
def baseY : Float := top + plotHeight

/-- the height of a value on the canvas; values above the axis are cut off -/
def yOf (yMax v : Float) : Float := baseY - lesser v yMax / yMax * plotHeight

/-- the grid line and the number of the `i`-th step -/
def stepMark (params : Params) (pen : Pen) (yMax step : Float) (i : Nat) : Drawing :=
  let v := Float.ofNat i * step
  let y := yOf yMax v
  Drawing.when (0 < i && params.visible "showGrid")
      (pen.rule ("grid" ++ tidy 2 v) ⟨left, y⟩ ⟨left + plotWidth, y⟩ Cls.grid) ++
    pen.text ("tick" ++ tidy 2 v) (tidy 2 v) ⟨left - 8.0, y⟩ .finish Cls.sideText

def yAxisName (params : Params) (pen : Pen) : Drawing :=
  let content := params.label "yAxis"
  let p : Point := ⟨18.0, top + plotHeight / 2.0⟩
  let turn : Attr := ⟨"transform", s!"rotate(-90 {tidy 2 p.x} {tidy 2 p.y})"⟩
  Drawing.when (!content.isEmpty)
    [.label pen.places { Element.text.look "y-axis" Cls.text with style :=
      [turn] } content p .middle]

def axes (params : Params) (pen : Pen) (yMax step : Float) : Drawing :=
  let steps := toCount word64 (wholeNearest (yMax / step))
  ((List.range (steps + 1)).flatMap (stepMark params pen yMax step)) ++
    pen.rule "x-axis" ⟨left, baseY⟩ ⟨left + plotWidth, baseY⟩ Cls.axis ++
    pen.rule "y-axis" ⟨left, baseY⟩ ⟨left, top⟩ Cls.axis ++
    pen.text "x-axis" (params.label "xAxis") ⟨left + plotWidth / 2.0, height - 16.0⟩
    .middle Cls.text ++ yAxisName params pen

def bar (params : Params) (pen : Pen) (yMax slot : Float) (category : String) (value : Float)
    (i : Nat) : Drawing :=
  let barWidth := slot * 0.6
  let x := left + slot * Float.ofNat i + (slot - barWidth) / 2.0
  let y := yOf yMax value
  [.rect pen.places (Element.bar.look s!"{i}" Cls.bar) ⟨x, y⟩ barWidth (baseY - y)] ++
    pen.text s!"category{i}" category ⟨x + barWidth / 2.0, baseY + 16.0⟩ .middle Cls.sideText ++
    Drawing.when (params.visible "showValues")
      (pen.text s!"value{i}" (tidy 2 value) ⟨x + barWidth / 2.0, y - 10.0⟩ .middle Cls.sideText)

def scene (params : Params) (pen : Pen) : Except TemplateError Scene := do
  let categories := Text.entries (params.text "categories")
  if categories.isEmpty then
    throw (.invalid "categories" "at least one category is required")
  let values ← frequencies (params.text "frequencies") categories.length
  let largest := values.foldl greater 0.0
  let requested := (params.number? "yMax").getD 0.0
  let (yMax, step) := axis (if 0.0 < requested then requested else largest)
  let slot := plotWidth / Float.ofNat categories.length
  return {
    width, height, root := "bar-chart",
    drawing :=
      pen.label "title" (params.label "title") ⟨width / 2.0, top / 2.0⟩ ++
      Pen.group "axes" (axes params pen yMax step) ++
      Pen.group "bars"
        (((categories.zip values).zipIdx).flatMap fun e =>
          bar params pen yMax slot e.1.1 e.1.2 e.2),
    warnings :=
      if 0.0 < requested && requested < largest then
        [s!"yMax {tidy 2 requested} is below the largest frequency {tidy 2 largest}; bars are clipped"]
      else [] }

end BarChart

def barChart [Numerals] [Platform] : Template :=
  .ofScene "math.statistics.bar_chart.v1" "Bar chart" "statistics" BarChart.schema BarChart.scene

end Figures
