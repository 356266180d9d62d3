import Figures.Template.Basic

/-!
# The cylinder

* `cylinder`   the figure: top, sides, the front and the hidden half of the base, radius, height
-/

namespace Figures

namespace Cylinder

variable [Numerals] [Platform]

def width : Float := 420.0
def height : Float := 460.0

/-- how flat the top and the base appear -/
def flatness : Float := 0.3

def schema : Schema :=
  (({} : Schema)
    |>.label "radius" { maxLength := some 12 }
    |>.label "height" { maxLength := some 12 }
    |>.value "radius" (ValueSpec.number 3.0 |>.range 0.1 1000.0 |>.needed)
    |>.value "height" (ValueSpec.number 8.0 |>.range 0.1 1000.0 |>.needed)
    |>.value "unit" (ValueSpec.text "cm")
    |>.flag "showHiddenEdges" true
    |>.flag "showRadius" true
    |>.flag "showHeight" true)

def scene (params : Params) (pen : Pen) : Except TemplateError Scene := do
  let radius ← params.positive "radius"
  let rise ← params.positive "height"
  let unit := params.text "unit"
  let scale := lesser ((width - 140.0) / (2.0 * radius))
    ((height - 120.0) / (rise + 2.0 * radius * flatness))
  let rx := radius * scale
  let ry := rx * flatness
  let h := rise * scale
  let cx := width / 2.0
  let top := (height - h) / 2.0
  let bottom := top + h
  let center : Point := ⟨cx, top⟩
  let leftTop : Point := ⟨cx - rx, top⟩
  let rightTop : Point := ⟨cx + rx, top⟩
  let leftBottom : Point := ⟨cx - rx, bottom⟩
  let rightBottom : Point := ⟨cx + rx, bottom⟩
  -- the front half of the base bulges towards the viewer, which is down
  let half (back : Bool) : Path := [.move leftBottom, .ellipse rightBottom rx ry false back]
  return {
    width, height, root := "cylinder",
    drawing :=
      [.ellipse pen.places (Element.face.look "top" Cls.face) center rx ry] ++
      pen.segment "left" leftTop leftBottom ++ pen.segment "right" rightTop rightBottom ++
      pen.path .path "base-front" (half false) Cls.line ++
      Drawing.when (params.visible "showHiddenEdges")
        (pen.path .path "base-back" (half true) Cls.hiddenLine) ++
      Drawing.when (params.visible "showRadius")
        (pen.dot "center" center ++ pen.segment "radius" center rightTop ++
          pen.text "radius" (params.labelOr "radius" (Template.measure radius unit))
            ⟨cx + rx / 2.0, top - 14.0⟩ .middle Cls.sideText) ++
      Drawing.when (params.visible "showHeight")
        (pen.text "height" (params.labelOr "height" (Template.measure rise unit))
          ⟨cx + rx + 12.0, (top + bottom) / 2.0⟩ .start Cls.sideText) }

end Cylinder

def cylinder [Numerals] [Platform] : Template :=
  .ofScene "math.geometry.cylinder.v1" "Cylinder" "geometry" Cylinder.schema Cylinder.scene

end Figures
