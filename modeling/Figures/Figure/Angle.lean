import Figures.Template.Basic

/-!
# A single angle

* `angle`   the figure: two rays with the arc between them, or the mark of a right angle

Reflex angles are drawn too: here the arc follows the measure and not the shorter side.
-/

namespace Figures

namespace Angle

variable [Numerals] [Platform]

def width : Float := 420.0
def height : Float := 320.0

def arm : Float := 170.0

def arcRadius : Float := 40.0

def schema : Schema :=
  (({} : Schema)
    |>.label "O" { preset := some "O", maxLength := some 3 }
    |>.label "A" { preset := some "A", maxLength := some 3 }
    |>.label "B" { preset := some "B", maxLength := some 3 }
    |>.label "angle" { maxLength := some 12 }
    |>.value "degrees" (ValueSpec.number 50.0 |>.range 1.0 359.0 |>.needed)
    |>.flag "showMeasure" true
    |>.flag "showPointLabels" true
    |>.flag "showRightAngle" true)

/-- the size of the angle, less than a full turn -/
def size (params : Params) : Except TemplateError Float := do
  let x ← params.required "degrees"
  if x ≤ 0.0 || 360.0 ≤ x then
    .error (.invalid "degrees" s!"must lie strictly between 0 and 360 (got {plain x})")
  else .ok x

/-- an arc from the first arm to the direction `theta` -/
def arcPath (vertex : Point) (theta : Float) (large : Bool) : Path :=
  [.move (vertex.polar arcRadius 0.0), .arc (vertex.polar arcRadius theta) arcRadius large false]

def scene (params : Params) (pen : Pen) : Except TemplateError Scene := do
  let x ← size params
  -- obtuse and reflex angles open to the left, so their vertex stands near the middle
  let vertex : Point :=
    if 90.0 < x then ⟨width * 0.55, height * 0.55⟩ else ⟨width * 0.25, height * 0.8⟩
  -- a turn against the clock is negative, as `y` points down
  let theta := -(radians x)
  let a := vertex.polar (lesser arm (width - vertex.x - 20.0)) 0.0
  let armB := if 90.0 < x then 120.0 else arm * 0.9
  let b := vertex.polar armB theta
  let isRight := (x - 90.0).abs < 1e-9
  return {
    width, height, root := "angle",
    drawing :=
      pen.segment "OA" vertex a ++ pen.segment "OB" vertex b ++
      (if isRight && params.visible "showRightAngle" then
        pen.rightAngle "right-O" vertex a b 18.0
      else pen.path .arc "O" (arcPath vertex theta (decide (180.0 < x))) Cls.arc) ++
      Drawing.when (params.visible "showMeasure")
        (pen.text "angle" (params.labelOr "angle" (Template.degreesText x))
          (vertex.polar (arcRadius + 22.0) (theta / 2.0)) .middle Cls.angleText) ++
      pen.dot "O" vertex ++
      Drawing.when (params.visible "showPointLabels")
        -- the vertex is named behind the bisector, away from both arms
        (pen.label "O" (params.label "O") (vertex.polar 22.0 (theta / 2.0 + pi)) ++
          pen.label "A" (params.label "A") ⟨a.x, a.y + 20.0⟩ ++
          pen.label "B" (params.label "B") (vertex.polar (armB + 20.0) theta)) }

end Angle

def angle [Numerals] [Platform] : Template :=
  .ofScene "math.geometry.angle.v1" "Angle" "geometry" Angle.schema Angle.scene

end Figures
