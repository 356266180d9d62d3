import Figures.Template.Basic

/-!
# The circle

* `circle`   the figure: the circle, a diameter, a radius, the centre

The circle is always drawn in one size; its radius only shows in the labels.
-/

namespace Figures

namespace Circle

variable [Numerals] [Platform]

def size : Float := 420.0
def drawnRadius : Float := 150.0

def schema : Schema :=
  (({} : Schema)
    |>.label "O" { preset := some "O", maxLength := some 3 }
    |>.label "radius" { maxLength := some 12 }
    |>.label "diameter" { maxLength := some 12 }
    |>.value "radius" (ValueSpec.number 5.0 |>.range 0.1 1000.0 |>.needed)
    |>.value "unit" (ValueSpec.text "cm")
    |>.flag "showCenter" true
    |>.flag "showRadius" true
    |>.flag "showDiameter" false)

def center : Point := ⟨size / 2.0, size / 2.0⟩

def diameterMark (pen : Pen) (content : String) : Drawing :=
  pen.segment "diameter" (center.shift (-drawnRadius) 0.0) (center.shift drawnRadius 0.0) ++
    pen.text "diameter" content (center.shift (drawnRadius / 2.0) 18.0) .middle Cls.sideText

def radiusMark (pen : Pen) (content : String) (angle : Float) : Drawing :=
  let tip := Point.polar center drawnRadius angle
  let mid := center.midpoint tip
  pen.segment "radius" center tip ++
    pen.text "radius" content ⟨mid.x, mid.y - 16.0⟩ .middle Cls.sideText

def scene (params : Params) (pen : Pen) : Except TemplateError Scene := do
  let radius ← params.positive "radius"
  let unit := params.text "unit"
  -- a radius is kept clear of a drawn diameter
  let angle := if params.visible "showDiameter" then -(pi / 4.0) else 0.0
  return {
    width := size, height := size, root := "circle",
    drawing :=
      [.circle pen.places (Element.path.look "circle" Cls.line) center drawnRadius] ++
      Drawing.when (params.visible "showDiameter")
        (diameterMark pen (params.labelOr "diameter" (Template.measure (radius * 2.0) unit))) ++
      Drawing.when (params.visible "showRadius")
        (radiusMark pen (params.labelOr "radius" (Template.measure radius unit)) angle) ++
      Drawing.when (params.visible "showCenter")
        (pen.dot "O" center ++
          pen.label "O" (params.label "O") ⟨center.x - 16.0, center.y + 18.0⟩) }

end Circle

def circle [Numerals] [Platform] : Template :=
  .ofScene "math.geometry.circle.v1" "Circle" "geometry" Circle.schema Circle.scene

end Figures
