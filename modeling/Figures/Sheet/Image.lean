import Figures.Json.Decoder
import Figures.Text.Base64

/-!
# Images

* `Image`            markup with its size and the warnings that came up while it was drawn
* `Image.blank`      no picture, only warnings
* `Image.dataUri?`   the markup as a `data:` address, unless there is none
-/

namespace Figures

/-- markup with its size and warnings -/
structure Image where
  svg : String
  width : Float
  height : Float
  warnings : List String

namespace Image

/-- nothing could be drawn; the warnings say why -/
def blank (warnings : List String) : Image := ⟨"", 0.0, 0.0, warnings⟩

def isBlank (image : Image) : Bool := image.svg.isEmpty

/-- warnings put in front of those that the image has -/
def withLeading (image : Image) (leading : List String) : Image :=
  { image with warnings := leading ++ image.warnings }

def dataUri? (image : Image) : Option String :=
  if image.isBlank then none
  else
    some ("data:image/svg+xml;base64," ++
      String.ofList (Base64.encode image.svg.toUTF8.data.toList))

def toJson (image : Image) : Json :=
  .object
    [("svg", .text image.svg), ("width", .ofReal image.width), ("height", .ofReal image.height),
     ("warnings", .list (image.warnings.map .text))]

structure Parts where
  svg : Option String := none
  width : Option Float := none
  height : Option Float := none
  warnings : Option (List String) := none

def decoder : Decoder Image :=
  Decoder.record "RenderResult"
    [.of "svg" Decoder.text fun v p => { p with svg := some v },
     .of "width" Decoder.real fun v p => { p with width := some v },
     .of "height" Decoder.real fun v p => { p with height := some v },
     .of "warnings" (Decoder.list Decoder.text) fun v p => { p with warnings := some v }]
    ({} : Parts) fun missing p => do
      let svg ← Decoder.require missing 0 "svg" p.svg
      let width ← Decoder.require missing 1 "width" p.width
      let height ← Decoder.require missing 2 "height" p.height
      let warnings ← Decoder.require missing 3 "warnings" p.warnings
      .ok ⟨svg, width, height, warnings⟩

end Image

end Figures
