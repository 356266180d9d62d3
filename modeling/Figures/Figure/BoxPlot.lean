import Figures.Template.Basic

/-!
# The box plot

* `Summary`   the five numbers of a distribution
* `boxPlot`   the figure: axis, whiskers, box, median, the numbers
-/

namespace Figures

namespace BoxPlot

variable [Numerals] [Platform]

def width : Float := 560.0
def height : Float := 240.0
def margin : Float := 40.0
def boxTop : Float := 60.0
def boxHeight : Float := 60.0
def axisY : Float := 170.0
def tickLimit : Nat := 41

def schema : Schema :=
  (({} : Schema)
    |>.label "title" { maxLength := some 60 }
    |>.value "min" (ValueSpec.number 2.0 |>.needed)
    |>.value "q1" (ValueSpec.number 5.0 |>.needed)
    |>.value "median" (ValueSpec.number 8.0 |>.needed)
    |>.value "q3" (ValueSpec.number 11.0 |>.needed)
    |>.value "max" (ValueSpec.number 15.0 |>.needed)
    |>.value "axisMin" (ValueSpec.number 0.0)
    |>.value "axisMax" (ValueSpec.number 20.0)
    |>.value "step" { ValueSpec.number 2.0 with min := some 0.01 }
    |>.flag "showValues" true)

/-- the five numbers of a distribution -/
structure Summary where
  min : Float
  q1 : Float
  median : Float
  q3 : Float
  max : Float

namespace Summary

def entries (s : Summary) : List (String × Float) :=
  [("min", s.min), ("q1", s.q1), ("median", s.median), ("q3", s.q3), ("max", s.max)]

/-- some number is above the one that follows it -/
def descends (s : Summary) : Bool :=
  s.q1 < s.min || s.median < s.q1 || s.q3 < s.median || s.max < s.q3

def ofParams (params : Params) : Except TemplateError Summary := do
  let min ← params.required "min"
  let q1 ← params.required "q1"
  let median ← params.required "median"
  let q3 ← params.required "q3"
  let max ← params.required "max"
  let s : Summary := ⟨min, q1, median, q3, max⟩
  if s.descends then
    .error (.geometry "five-number summary must satisfy min <= q1 <= median <= q3 <= max")
  else .ok s

end Summary

def tick (pen : Pen) (v x : Float) : Drawing :=
  let name := "tick" ++ tidy 2 v
  pen.rule name ⟨x, axisY⟩ ⟨x, axisY + 6.0⟩ Cls.axis ++
    pen.text name (tidy 2 v) ⟨x, axisY + 20.0⟩ .middle Cls.sideText

/-- whiskers with their caps, box and median -/
def plot (pen : Pen) (s : Summary) (xOf : Float → Float) : Drawing :=
  let middle := boxTop + boxHeight / 2.0
  let bottom := boxTop + boxHeight
  let cap (name : String) (v : Float) : Drawing :=
    pen.segment name ⟨xOf v, boxTop + 15.0⟩ ⟨xOf v, bottom - 15.0⟩
  pen.segment "whisker-low" ⟨xOf s.min, middle⟩ ⟨xOf s.q1, middle⟩ ++
    pen.segment "whisker-high" ⟨xOf s.q3, middle⟩ ⟨xOf s.max, middle⟩ ++
    cap "cap-min" s.min ++ cap "cap-max" s.max ++
    [.rect pen.places (Element.bar.look "box" Cls.bar) ⟨xOf s.q1, boxTop⟩ (xOf s.q3 - xOf s.q1)
      boxHeight] ++
    pen.segment "median" ⟨xOf s.median, boxTop⟩ ⟨xOf s.median, bottom⟩

def scene (params : Params) (pen : Pen) : Except TemplateError Scene := do
  let s ← Summary.ofParams params
  let lo ← params.required "axisMin"
  let hi ← params.required "axisMax"
  let step ← params.positive "step"
  if hi ≤ lo then throw (.invalid "axisMax" "must be greater than axisMin")
  let some marks := Template.ticks lo hi step tickLimit
    | throw (.invalid "step" "too small for the axis range")
  let scale := (width - 2.0 * margin) / (hi - lo)
  -- what lies beyond the axis is drawn at its end
  let xOf (v : Float) : Float := margin + (clamp lo hi v - lo) * scale
  return {
    width, height, root := "box-plot",
    drawing :=
      pen.label "title" (params.label "title") ⟨width / 2.0, 26.0⟩ ++
      Pen.group "axis"
        (pen.rule "axis" ⟨margin, axisY⟩ ⟨width - margin, axisY⟩ Cls.axis ++
          marks.flatMap fun v => tick pen v (xOf v)) ++
      Pen.group "plot" (plot pen s xOf) ++
      Drawing.when (params.visible "showValues")
        (Pen.group "values"
          (s.entries.flatMap fun e =>
            pen.text e.1 (tidy 2 e.2) ⟨xOf e.2, boxTop - 12.0⟩ .middle Cls.sideText)),
    warnings :=
      if s.min < lo || hi < s.max then
        ["Summary extends beyond the axis range and is clipped"]
      else [] }

end BoxPlot

/-- the box plot of a five-number summary -/
def boxPlot [Numerals] [Platform] : Template :=
  .ofScene "math.statistics.box_plot.v1" "Box plot" "statistics" BoxPlot.schema BoxPlot.scene

end Figures
