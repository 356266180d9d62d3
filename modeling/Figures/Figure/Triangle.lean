import Figures.Plane.Fit
import Figures.Template.Basic

/-!
# The triangle with given sides

* `Triangle.corners`   the vertices of a triangle with three given sides
* `triangle`           the figure: sides, angles or the mark of a right angle, lengths, vertices

Side `a` lies opposite vertex `A`, and so on.
-/

namespace Figures

namespace Triangle

variable [Numerals] [Platform]

/-- the vertices of the triangle with sides `a`, `b` and `c`, `y` up: `A` at the origin, `B` to its
right. There is none if two sides together are not longer than the third -/
def corners (a b c : Float) : Except TemplateError (Point × Point × Point) :=
  if a + b ≤ c || a + c ≤ b || b + c ≤ a then
    .error (.geometry s!"sides {plain a}, {plain b}, {plain c} cannot form a triangle")
  else
    let alpha := arccosine (clamp (-1.0) 1.0 ((b * b + c * c - a * a) / (2.0 * b * c)))
    .ok (Point.origin, ⟨c, 0.0⟩, ⟨b * cosine alpha, b * sine alpha⟩)

def width : Float := 500.0
def height : Float := 420.0

/-- an angle nearer than this to a right one, in degrees, is marked as right -/
def rightTolerance : Float := 0.05

def schema : Schema :=
  (({} : Schema)
    |>.label "A" { preset := some "A", maxLength := some 3 }
    |>.label "B" { preset := some "B", maxLength := some 3 }
    |>.label "C" { preset := some "C", maxLength := some 3 }
    |>.label "a" { maxLength := some 12 }
    |>.label "b" { maxLength := some 12 }
    |>.label "c" { maxLength := some 12 }
    |>.value "a" (ValueSpec.number 3.0 |>.range 0.1 1000.0 |>.needed)
    |>.value "b" (ValueSpec.number 4.0 |>.range 0.1 1000.0 |>.needed)
    |>.value "c" (ValueSpec.number 5.0 |>.range 0.1 1000.0 |>.needed)
    |>.value "unit" (ValueSpec.text "cm")
    |>.flag "showVertexLabels" true
    |>.flag "showSideLengths" true
    |>.flag "showAngles" false
    |>.flag "showRightAngle" true)

def angleMark (params : Params) (pen : Pen) (name : String) (vertex p q : Point) : Drawing :=
  let arc := AngleArc.between vertex p q 28.0
  let isRight := (arc.degrees - 90.0).abs < rightTolerance
  if isRight && params.visible "showRightAngle" then
    pen.rightAngle ("right-" ++ name) vertex p q 16.0
  else if params.visible "showAngles" then
    pen.arc name arc ++ pen.arcLabel name (Template.degreesText arc.degrees) vertex arc
  else []

def vertexMark (params : Params) (pen : Pen) (center : Point) (name : String) (p : Point) :
    Drawing :=
  pen.dot name p ++
    Drawing.when (params.visible "showVertexLabels")
      (pen.label name (params.label name) (p.outward center 22.0))

def scene (params : Params) (pen : Pen) : Except TemplateError Scene := do
  let a ← params.positive "a"
  let b ← params.positive "b"
  let c ← params.positive "c"
  let unit := params.text "unit"
  let (ma, mb, mc) ← corners a b c
  let place := fitting epsilon width height 70.0 ma [mb, mc]
  let (pa, pb, pc) := (place ma, place mb, place mc)
  let center := Point.centroid [pa, pb, pc]
  let sideText (name : String) (length : Float) (p q : Point) : Drawing :=
    pen.sideLabel ("side-" ++ name) (params.labelOr name (Template.measure length unit)) p q center
  return {
    width, height, root := "triangle",
    drawing :=
      Pen.group "sides"
        (pen.segment "AB" pa pb ++ pen.segment "BC" pb pc ++ pen.segment "CA" pc pa) ++
      Pen.group "angles"
        (angleMark params pen "A" pa pb pc ++ angleMark params pen "B" pb pc pa ++
          angleMark params pen "C" pc pa pb) ++
      Drawing.when (params.visible "showSideLengths")
        (Pen.group "side-lengths"
          (sideText "c" c pa pb ++ sideText "a" a pb pc ++ sideText "b" b pc pa)) ++
      Pen.group "vertices"
        (vertexMark params pen center "A" pa ++ vertexMark params pen center "B" pb ++
          vertexMark params pen center "C" pc) }

end Triangle

def triangle [Numerals] [Platform] : Template :=
  .ofScene "math.geometry.triangle.v1" "Triangle" "geometry" Triangle.schema Triangle.scene

end Figures
