import Figures.Template.Basic

/-!
# The cuboid

* `cuboid`   the figure: three faces in the oblique picture, hidden edges, dimensions, vertices

The front face is `A B C D` from the lower left against the clock, the back face `E F G H`.
-/

namespace Figures

namespace Cuboid

variable [Numerals] [Platform]

def width : Float := 500.0
def height : Float := 420.0

def vertexNames : List String := ["A", "B", "C", "D", "E", "F", "G", "H"]

def schema : Schema :=
  vertexNames.foldl (fun s name => s.label name { preset := some name, maxLength := some 3 })
    (({} : Schema)
      |>.label "length" { maxLength := some 12 }
      |>.label "width" { maxLength := some 12 }
      |>.label "height" { maxLength := some 12 }
      |>.value "length" (ValueSpec.number 6.0 |>.range 0.1 1000.0 |>.needed)
      |>.value "width" (ValueSpec.number 3.0 |>.range 0.1 1000.0 |>.needed)
      |>.value "height" (ValueSpec.number 4.0 |>.range 0.1 1000.0 |>.needed)
      |>.value "unit" (ValueSpec.text "cm")
      |>.flag "showHiddenEdges" true
      |>.flag "showDimensions" true
      |>.flag "showVertexLabels" false)

def scene (params : Params) (pen : Pen) : Except TemplateError Scene := do
  let length ← params.positive "length"
  let depth ← params.positive "width"
  let rise ← params.positive "height"
  let unit := params.text "unit"
  let step := Point.obliqueStep
  -- the picture is as wide as the length with the offset of the depth, and as high likewise
  let scale := lesser ((width - 140.0) / (length + depth * step))
    ((height - 120.0) / (rise + depth * step))
  let (l, w, h) := (length * scale, depth * scale, rise * scale)
  let left := (width - (l + w * step)) / 2.0
  let bottom := (height + (h + w * step)) / 2.0
  let a : Point := ⟨left, bottom⟩
  let b : Point := ⟨left + l, bottom⟩
  let c : Point := ⟨left + l, bottom - h⟩
  let d : Point := ⟨left, bottom - h⟩
  let (e, f, g, k) := (a.oblique w, b.oblique w, c.oblique w, d.oblique w)
  let (midAB, midBF, midAD) := (Point.midpoint a b, Point.midpoint b f, Point.midpoint a d)
  let name (v : String) (p : Point) (dx dy : Float) : Drawing :=
    pen.label v (params.label v) (p.shift dx dy)
  return {
    width, height, root := "cuboid",
    drawing :=
      Pen.group "faces"
        (pen.polygon .face "front" [a, b, c, d] Cls.face ++
          pen.polygon .face "top" [d, c, g, k] Cls.face ++
          pen.polygon .face "side" [b, f, g, c] Cls.face) ++
      Drawing.when (params.visible "showHiddenEdges")
        (Pen.group "hidden-edges"
          (pen.hiddenSegment "AE" a e ++ pen.hiddenSegment "EF" e f ++
            pen.hiddenSegment "EH" e k)) ++
      Drawing.when (params.visible "showDimensions")
        (Pen.group "dimensions"
          (pen.text "length" (params.labelOr "length" (Template.measure length unit))
              ⟨midAB.x, midAB.y + 22.0⟩ .middle Cls.sideText ++
            pen.text "width" (params.labelOr "width" (Template.measure depth unit))
              ⟨midBF.x + 12.0, midBF.y + 12.0⟩ .start Cls.sideText ++
            pen.text "height" (params.labelOr "height" (Template.measure rise unit))
              ⟨midAD.x - 12.0, midAD.y⟩ .finish Cls.sideText)) ++
      Drawing.when (params.visible "showVertexLabels")
        (Pen.group "vertices"
          (name "A" a (-12.0) 16.0 ++ name "B" b 12.0 16.0 ++ name "C" c 12.0 0.0 ++
            name "D" d (-12.0) 0.0 ++ name "E" e (-12.0) (-10.0) ++ name "F" f 14.0 0.0 ++
            name "G" g 12.0 (-12.0) ++ name "H" k (-12.0) (-12.0))) }

end Cuboid

/-- the cuboid with given length, width and height -/
def cuboid [Numerals] [Platform] : Template :=
  .ofScene "math.geometry.cuboid.v1" "Cuboid" "geometry" Cuboid.schema Cuboid.scene

end Figures
