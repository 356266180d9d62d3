import Figures.Template.Basic

/-!
# The number line

* `Shade`        which side of the marked point is shaded
* `numberLine`   the figure: an axis with ticks, a marked point, the shading of an inequality
-/

namespace Figures

namespace NumberLine

variable [Numerals] [Platform]

def width : Float := 600.0
def height : Float := 160.0
def margin : Float := 40.0
def axisY : Float := 90.0
def tickLimit : Nat := 41

def schema : Schema :=
  (({} : Schema)
    |>.label "point" { preset := some "P", maxLength := some 3 }
    |>.value "min" (ValueSpec.number (-5.0))
    |>.value "max" (ValueSpec.number 5.0)
    |>.value "step" { ValueSpec.number 1.0 with min := some 0.01 }
    |>.value "point" (ValueSpec.number 2.0)
    |>.value "shade" (ValueSpec.text "none")
    |>.flag "showPoint" true
    |>.flag "openPoint" false
    |>.flag "showTickLabels" true
    |>.flag "showArrows" true)

/-- which side of the marked point is shaded -/
inductive Shade where
  | none
  | left
  | right
  deriving Repr, DecidableEq

def Shade.ofText (s : String) : Except TemplateError Shade :=
  let name := Text.trim s
  if name = "" ∨ name = "none" then .ok .none
  else if name = "left" then .ok .left
  else if name = "right" then .ok .right
  else .error (.invalid "shade" s!"expected none, left or right (got \"{name}\")")

def leftEnd : Point := ⟨margin - 20.0, axisY⟩
def rightEnd : Point := ⟨width - margin + 20.0, axisY⟩

def Shade.tip? : Shade → Option Point
  | .none => Option.none
  | .left => some ⟨leftEnd.x, axisY⟩
  | .right => some ⟨rightEnd.x, axisY⟩

def tick (params : Params) (pen : Pen) (v x : Float) : Drawing :=
  let name := "tick" ++ tidy 2 v
  pen.rule name ⟨x, axisY - 8.0⟩ ⟨x, axisY + 8.0⟩ Cls.axis ++
    Drawing.when (params.visible "showTickLabels")
      (pen.text name (tidy 2 v) ⟨x, axisY + 26.0⟩ .middle Cls.sideText)

/-- the marked point, filled or open, with its shading and its label -/
def marked (params : Params) (pen : Pen) (shade : Shade) (p : Point) : Drawing :=
  (match shade.tip? with
    | some tip =>
      [.line pen.places
        { Element.line.look "shade" Cls.line with style := [⟨"stroke-width", "5"⟩] } p tip]
    | none => []) ++
  [.circle pen.places
    { Element.point.look "point" Cls.line with
      style := if params.visible "openPoint" then [⟨"fill", "white"⟩] else [] } p 7.0] ++
  pen.label "point" (params.label "point") ⟨p.x, axisY - 26.0⟩

def axis (params : Params) (pen : Pen) : Drawing :=
  pen.rule "axis" leftEnd rightEnd Cls.axis ++
    Drawing.when (params.visible "showArrows")
      (pen.polygon .mark "arrow-right" (arrowHead leftEnd rightEnd 10.0) Cls.point ++
        pen.polygon .mark "arrow-left" (arrowHead rightEnd leftEnd 10.0) Cls.point)

def scene (params : Params) (pen : Pen) : Except TemplateError Scene := do
  let lo ← params.required "min"
  let hi ← params.required "max"
  let step ← params.positive "step"
  let shade ← Shade.ofText (params.text "shade")
  if hi ≤ lo then throw (.invalid "max" "must be greater than min")
  let some marks := Template.ticks lo hi step tickLimit
    | throw (.invalid "step" s!"too small for the range (at most {tickLimit} ticks)")
  let scale := (width - 2.0 * margin) / (hi - lo)
  let xOf (v : Float) : Float := margin + (v - lo) * scale
  let line := axis params pen ++
    Pen.group "ticks" (marks.flatMap fun v => tick params pen v (xOf v))
  let base : Scene := { width, height, root := "number-line", drawing := line }
  if params.visible "showPoint" then
    let v ← params.required "point"
    if v < lo || hi < v then
      return { base with warnings := [s!"Point {tidy 2 v} lies outside the number line"] }
    else return { base with drawing := line ++ marked params pen shade ⟨xOf v, axisY⟩ }
  else return base

end NumberLine

def numberLine [Numerals] [Platform] : Template :=
  .ofScene "math.number.number_line.v1" "Number line" "number" NumberLine.schema NumberLine.scene

end Figures
