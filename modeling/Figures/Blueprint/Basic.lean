import Figures.Json.Decoder
import Figures.Number.Reading

/-!
# Blueprints

* `Shape`        one primitive of a blueprint; its fields may hold formulas
* `Layer`        shapes that are drawn together, at a height `z`
* `ViewBox`      the size of the picture
* `Blueprint`    a figure described as data
-/

namespace Figures

structure ViewBox where
  width : Float
  height : Float
  deriving Inhabited

/-- one primitive: an id, the name of its kind, and all other fields -/
structure Shape where
  id : String
  kind : String
  fields : Dict Json
  deriving Inhabited

/-- shapes that are drawn together; layers with a smaller `z` are drawn earlier -/
structure Layer where
  id : String
  z : Float
  items : List Shape
  deriving Inhabited

/-- a figure described as data -/
structure Blueprint where
  version : Nat
  viewBox : ViewBox
  layers : List Layer
  deriving Inhabited

/-- the name of the shape at `index` of a layer: its id, or else its place -/
def Layer.nameOf (layer : Layer) (index : Nat) (item : Shape) : String :=
  if item.id.isEmpty then s!"{layer.id}-{index}" else item.id

def Layer.named (layer : Layer) : List (String × Shape) :=
  layer.items.zipIdx.map fun e => (layer.nameOf e.2 e.1, e.1)

namespace ViewBox

/-- a size must be positive in both directions -/
def ofSize (width height : Float) : Except Mismatch ViewBox :=
  if 0.0 < width && 0.0 < height then .ok ⟨width, height⟩
  else .error (.rejected s!"viewBox size must be positive (got {plain width} x {plain height})")

/-- the size in a text of four numbers, blanks or commas between them -/
def ofText (s : String) : Except Mismatch ViewBox :=
  let parts := (Text.splitAt (fun c => isBlank c || c == ',') s).filter fun part => !part.isEmpty
  match parts.mapM readNumber? with
  | some [_, _, width, height] => ofSize width height
  | _ => .error (.rejected s!"viewBox \"{s}\" is not four numbers")

def toJson (v : ViewBox) : Json :=
  .object [("width", .ofReal v.width), ("height", .ofReal v.height)]

def sizeDecoder : Decoder (Float × Float) :=
  Decoder.record "RawViewBox"
    [.of "width" Decoder.real fun w b => (some w, b.2),
     .of "height" Decoder.real fun h b => (b.1, some h)]
    ((none, none) : Option Float × Option Float)
    fun missing b => do
      let w ← Decoder.require missing 0 "width" b.1
      let h ← Decoder.require missing 1 "height" b.2
      .ok (w, h)

/-- a text of four numbers, or an object with both sizes -/
def decoder : Decoder ViewBox
  | origin, doc => do
    let _ ← Decoder.json origin doc
    match doc with
    | .text s => (ofText s).mapError .mismatch
    | .object .. =>
      match sizeDecoder .value doc with
      | .ok (w, h) => (ofSize w h).mapError .mismatch
      | .error _ => .error (.mismatch (.noVariant "RawViewBox"))
    | _ => .error (.mismatch (.noVariant "RawViewBox"))

end ViewBox

namespace Shape

def toJson (s : Shape) : Json :=
  .object (("id", .text s.id) :: ("type", .text s.kind) :: s.fields.entries)

structure Parts where
  id : Option String := none
  kind : Option String := none
  fields : Dict Json := .empty

/-- a text field that must not be repeated -/
def once (key : String) (origin : Origin) (doc : Document) :
    Option String → Except DecodeError (Option String)
  | some _ => .error (.mismatch (.repeatedField key))
  | none => (Decoder.text origin doc).map some

/-- the members of an object as id, kind and other fields -/
def gather (origin : Origin) (parts : Parts) :
    List (String × Document) → Except DecodeError Parts
  | [] => .ok parts
  | (key, doc) :: rest =>
    if key = "id" then do
      let id ← once key origin doc parts.id
      gather origin { parts with id } rest
    else if key = "type" then do
      let kind ← once key origin doc parts.kind
      gather origin { parts with kind } rest
    else do
      let v ← Decoder.json origin doc
      gather origin { parts with fields := parts.fields.insert key v } rest

def decoder : Decoder Shape
  | origin, .object members stop => do
    let parts ← gather origin {} members
    Decoder.complete stop
    match parts.kind with
    | some kind => .ok ⟨parts.id.getD "", kind, parts.fields⟩
    | none => .error (.mismatch (.missingField "type"))
  | _, doc => .error (Decoder.unexpected "struct ShapeItem" doc)

end Shape

namespace Layer

def toJson (l : Layer) : Json :=
  .object [("id", .text l.id), ("z", .ofReal l.z), ("items", .list (l.items.map Shape.toJson))]

structure Parts where
  id : Option String := none
  z : Float := 0.0
  items : List Shape := []

def decoder : Decoder Layer :=
  Decoder.record "Layer"
    [.of "id" Decoder.text fun v p => { p with id := some v },
     .of "z" Decoder.real fun v p => { p with z := v },
     .of "items" (Decoder.list Shape.decoder) fun v p => { p with items := v }]
    ({} : Parts) fun missing p => do
      let id ← Decoder.require missing 0 "id" p.id
      .ok ⟨id, p.z, p.items⟩

end Layer

namespace Blueprint

def toJson (b : Blueprint) : Json :=
  .object
    [("version", .integer b.version), ("viewBox", b.viewBox.toJson),
     ("layers", .list (b.layers.map Layer.toJson))]

structure Parts where
  version : Nat := 1
  viewBox : Option ViewBox := none
  layers : List Layer := []

def decoder : Decoder Blueprint :=
  Decoder.record "Blueprint"
    [.of "version" Decoder.word fun v p => { p with version := v },
     .of "viewBox" ViewBox.decoder fun v p => { p with viewBox := some v },
     .of "layers" (Decoder.list Layer.decoder) fun v p => { p with layers := v }]
    ({} : Parts) fun missing p => do
      let viewBox ← Decoder.require missing 1 "viewBox" p.viewBox
      .ok ⟨p.version, viewBox, p.layers⟩

end Blueprint

end Figures
