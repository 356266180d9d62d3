import Figures.Json.Decoder
import Figures.Plane.Point
import Figures.Number.Reading
import Figures.Text.Blank

/-!
# Parameters of a figure

* `Setting`      a value: a number, or a text that may denote one
* `Flag`         a switch; what is not a boolean is kept as it came
* `Position`     a point; what is not a pair of numbers is kept as it came
* `Params`       labels, values, switches and positions, each by name

The readers `Params.label`, `number`, `text`, `visible` and `point` are all that a figure sees of
its parameters.
-/

namespace Figures

/-- a value given by the caller -/
inductive Setting where
  | number (x : Float)
  | text (s : String)

namespace Setting

/-- the number that a setting denotes; a text denotes a number if it reads as a finite one -/
def number? : Setting → Option Float
  | .number x => some x
  | .text s => (readNumber? (Text.trim s)).filter Float.isFinite

def asText : Setting → String
  | .number x => plain x
  | .text s => s

def isBlank : Setting → Bool
  | .number _ => false
  | .text s => Text.isBlank s

/-- the setting as messages show it: texts in quotes -/
def shown : Setting → String
  | .number x => plain x
  | .text s => "\"" ++ s ++ "\""

def toJson : Setting → Json
  | .number x => .ofReal x
  | .text s => .text s

def decoder : Decoder Setting
  | origin, doc => do
    Decoder.complete doc.fault?
    match doc with
    | .integer n => .ok (.number (Json.ofInteger n))
    | .real x => .ok (.number x)
    | .text s => .ok (.text s)
    | doc => do
      let _ ← Decoder.json origin doc
      .error (.mismatch (.noVariant "ParamValue"))

end Setting

/-- a switch given by the caller -/
inductive Flag where
  | known (b : Bool)
  | malformed (v : Json)

namespace Flag

def bool? : Flag → Option Bool
  | .known b => some b
  | .malformed _ => none

def toJson : Flag → Json
  | .known b => .boolean b
  | .malformed v => v

def decoder : Decoder Flag
  | _, .boolean b => .ok (.known b)
  | origin, doc => (Decoder.json origin doc).map .malformed

end Flag

namespace Point

def toJson (p : Point) : Json := .object [("x", .ofReal p.x), ("y", .ofReal p.y)]

def decoder : Decoder Point :=
  Decoder.record "Point"
    [.of "x" Decoder.real fun x b => (some x, b.2), .of "y" Decoder.real fun y b => (b.1, some y)]
    ((none, none) : Option Float × Option Float)
    fun missing b => do
      let x ← Decoder.require missing 0 "x" b.1
      let y ← Decoder.require missing 1 "y" b.2
      .ok ⟨x, y⟩

end Point

inductive Position where
  | known (p : Point)
  | malformed (v : Json)

namespace Position

/-- the point, if both coordinates are finite -/
def point? : Position → Option Point
  | .known p => if p.isFinite then some p else none
  | .malformed _ => none

def toJson : Position → Json
  | .known p => p.toJson
  | .malformed v => v

/-- a point, or else any value: the point must come from the document as a whole -/
def decoder : Decoder Position
  | origin, doc => do
    let v ← Decoder.json origin doc
    match Point.decoder .value doc with
    | .ok p => .ok (.known p)
    | .error _ => .ok (.malformed v)

end Position

structure Params where
  labels : Dict String := .empty
  values : Dict Setting := .empty
  visibility : Dict Flag := .empty
  positions : Dict Position := .empty
  deriving Inhabited

namespace Params

/-- the label of a name; empty if there is none -/
def label (p : Params) (name : String) : String := (p.labels.get? name).getD ""

def number? (p : Params) (name : String) : Option Float :=
  p.values.get? name >>= Setting.number?

/-- the value of a name as text; empty if there is none -/
def text (p : Params) (name : String) : String :=
  match p.values.get? name with
  | some v => v.asText
  | none => ""

/-- whether a switch is on; an absent or malformed one is off -/
def visible (p : Params) (name : String) : Bool :=
  (p.visibility.get? name >>= Flag.bool?).getD false

def point? (p : Params) (name : String) : Option Point :=
  p.positions.get? name >>= Position.point?

def withLabel (p : Params) (name text : String) : Params :=
  { p with labels := p.labels.insert name text }

def withValue (p : Params) (name : String) (value : Setting) : Params :=
  { p with values := p.values.insert name value }

def withFlag (p : Params) (name : String) (flag : Flag) : Params :=
  { p with visibility := p.visibility.insert name flag }

def withPosition (p : Params) (name : String) (position : Position) : Params :=
  { p with positions := p.positions.insert name position }

def toJson (p : Params) : Json :=
  .object
    [("labels", .ofDict .text p.labels), ("values", .ofDict Setting.toJson p.values),
     ("visibility", .ofDict Flag.toJson p.visibility),
     ("positions", .ofDict Position.toJson p.positions)]

/-- the parameters as expressions see them: an object with ascending keys -/
def scope (p : Params) : Json :=
  .object
    [("labels", .ofDict .text p.labels), ("positions", .ofDict Position.toJson p.positions),
     ("values", .ofDict Setting.toJson p.values),
     ("visibility", .ofDict Flag.toJson p.visibility)]

def decoder : Decoder Params :=
  Decoder.record "DiagramParams"
    [.of "labels" (Decoder.dict Decoder.text) fun v p => { p with labels := v },
     .of "values" (Decoder.dict Setting.decoder) fun v p => { p with values := v },
     .of "visibility" (Decoder.dict Flag.decoder) fun v p => { p with visibility := v },
     .of "positions" (Decoder.dict Position.decoder) fun v p => { p with positions := v }]
    ({} : Params) fun _ p => .ok p

end Params

end Figures
