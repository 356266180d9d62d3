import Figures.Plane.Fit
import Figures.Template.Basic

/-!
# The rectangle

* `rectangle`   the figure: sides, a diagonal, right angles, strokes on equal sides, dimensions,
                vertices
-/

namespace Figures

namespace Rectangle

variable [Numerals] [Platform]

def width : Float := 500.0
def height : Float := 380.0

def schema : Schema :=
  (({} : Schema)
    |>.label "A" { preset := some "A", maxLength := some 3 }
    |>.label "B" { preset := some "B", maxLength := some 3 }
    |>.label "C" { preset := some "C", maxLength := some 3 }
    |>.label "D" { preset := some "D", maxLength := some 3 }
    |>.label "width" { maxLength := some 12 }
    |>.label "height" { maxLength := some 12 }
    |>.label "diagonal" { maxLength := some 12 }
    |>.value "width" (ValueSpec.number 6.0 |>.range 0.1 1000.0 |>.needed)
    |>.value "height" (ValueSpec.number 4.0 |>.range 0.1 1000.0 |>.needed)
    |>.value "unit" (ValueSpec.text "cm")
    |>.flag "showVertexLabels" true
    |>.flag "showDimensions" true
    |>.flag "showRightAngles" true
    |>.flag "showDiagonal" false
    |>.flag "showEqualSides" false)

/-- a vertex with its name and its two neighbours -/
structure Corner where
  name : String
  vertex : Point
  next : Point
  previous : Point

/-- the mark of a right angle, at most a third of either side -/
def rightMark (pen : Pen) (k : Corner) : Drawing :=
  let size := lesser (lesser 14.0 (k.vertex.distance k.next / 3.0))
    (k.vertex.distance k.previous / 3.0)
  pen.rightAngle ("right-" ++ k.name) k.vertex k.next k.previous size

def vertexMark (params : Params) (pen : Pen) (center : Point) (k : Corner) : Drawing :=
  pen.dot k.name k.vertex ++
    Drawing.when (params.visible "showVertexLabels")
      (pen.label k.name (params.label k.name) (k.vertex.outward center 22.0))

def scene (params : Params) (pen : Pen) : Except TemplateError Scene := do
  let w ← params.positive "width"
  let h ← params.positive "height"
  let unit := params.text "unit"
  let place := fitting epsilon width height 70.0 Point.origin [⟨w, 0.0⟩, ⟨w, h⟩, ⟨0.0, h⟩]
  let (a, b, c, d) := (place Point.origin, place ⟨w, 0.0⟩, place ⟨w, h⟩, place ⟨0.0, h⟩)
  let center := Point.centroid [a, b, c, d]
  let corners : List Corner := [⟨"A", a, b, d⟩, ⟨"B", b, c, a⟩, ⟨"C", c, d, b⟩, ⟨"D", d, a, c⟩]
  -- the label of the diagonal stands off its middle, clear of the centre
  let diagonal :=
    pen.hiddenSegment "AC" a c ++
      pen.sideLabel "diagonal" (params.labelOr "diagonal" (Template.measure (hypotenuse w h) unit))
        a (Point.lerp a c 0.35) d
  return {
    width, height, root := "rectangle",
    drawing :=
      Pen.group "sides"
        (pen.segment "AB" a b ++ pen.segment "BC" b c ++ pen.segment "CD" c d ++
          pen.segment "DA" d a) ++
      Drawing.when (params.visible "showDiagonal") diagonal ++
      Drawing.when (params.visible "showRightAngles")
        (Pen.group "right-angles" (corners.flatMap (rightMark pen))) ++
      Drawing.when (params.visible "showEqualSides")
        (Pen.group "equal-marks"
          (pen.equalTicks "AB" a b 1 ++ pen.equalTicks "CD" c d 1 ++ pen.equalTicks "BC" b c 2 ++
            pen.equalTicks "DA" d a 2)) ++
      Drawing.when (params.visible "showDimensions")
        (Pen.group "dimensions"
          (pen.sideLabel "width" (params.labelOr "width" (Template.measure w unit)) a b center ++
            pen.sideLabel "height" (params.labelOr "height" (Template.measure h unit)) b c
              center)) ++
      Pen.group "vertices" (corners.flatMap (vertexMark params pen center)) }

end Rectangle

def rectangle [Numerals] [Platform] : Template :=
  .ofScene "math.geometry.rectangle.v1" "Rectangle" "geometry" Rectangle.schema Rectangle.scene

end Figures
