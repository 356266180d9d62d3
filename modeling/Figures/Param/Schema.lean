import Figures.Param.Basic

/-!
# Schemas

* `LabelSpec`, `ValueSpec`, `FlagSpec`, `PositionSpec`   what a figure asks of one parameter
* `Schema`                                              the parameters that a figure declares
* `Schema.presetFaults`                                 presets that break their own rules

A schema is open: parameters that it does not declare are passed on untouched.
-/

namespace Figures

structure LabelSpec where
  preset : Option String := none
  required : Bool := false
  maxLength : Option Nat := none
  deriving Inhabited

/-- whether a value must denote a number -/
inductive ValueKind where
  | number
  | text
  deriving Repr, DecidableEq

structure ValueSpec where
  preset : Option Setting := none
  required : Bool := false
  min : Option Float := none
  max : Option Float := none
  kind : ValueKind := .number
  deriving Inhabited

structure FlagSpec where
  preset : Option Bool := none
  deriving Inhabited

/-- `normalized` asks for coordinates between zero and one -/
structure PositionSpec where
  preset : Option Point := none
  required : Bool := false
  normalized : Bool := false
  deriving Inhabited

/-- the parameters that a figure declares -/
structure Schema where
  labels : Dict LabelSpec := .empty
  values : Dict ValueSpec := .empty
  visibility : Dict FlagSpec := .empty
  positions : Dict PositionSpec := .empty
  deriving Inhabited

namespace ValueSpec

def number (x : Float) : ValueSpec := { preset := some (.number x) }

def text (s : String) : ValueSpec := { preset := some (.text s), kind := .text }

def range (spec : ValueSpec) (lo hi : Float) : ValueSpec :=
  { spec with min := some lo, max := some hi }

def needed (spec : ValueSpec) : ValueSpec := { spec with required := true }

/-- the bounds that hold for a number -/
def admits (spec : ValueSpec) (x : Float) : Bool :=
  !(spec.min.any fun lo => x < lo) && !(spec.max.any fun hi => hi < x)

end ValueSpec

namespace Point

/-- both coordinates lie between zero and one -/
def inUnitSquare (p : Point) : Bool := 0.0 ≤ p.x && p.x ≤ 1.0 && 0.0 ≤ p.y && p.y ≤ 1.0

end Point

namespace Schema

def label (s : Schema) (name : String) (spec : LabelSpec) : Schema :=
  { s with labels := s.labels.insert name spec }

def value (s : Schema) (name : String) (spec : ValueSpec) : Schema :=
  { s with values := s.values.insert name spec }

def flag (s : Schema) (name : String) (preset : Bool) : Schema :=
  { s with visibility := s.visibility.insert name ⟨some preset⟩ }

def position (s : Schema) (name : String) (spec : PositionSpec) : Schema :=
  { s with positions := s.positions.insert name spec }

/-! ### presets that break their own rules -/

def labelFaults (name : String) (spec : LabelSpec) : List String :=
  match spec.preset, spec.maxLength with
  | some preset, some most =>
    if most < preset.toList.length then
      [s!"label \"{name}\" default exceeds maxLen {most}"]
    else []
  | _, _ => []

def valueFaults (name : String) (spec : ValueSpec) : List String :=
  match spec.kind, spec.preset with
  | .number, some preset =>
    match preset.number? with
    | none => [s!"value \"{name}\" default is not numeric"]
    | some x =>
      if spec.admits x then []
      else [s!"value \"{name}\" default {plain x} is out of range"]
  | _, _ => []

def positionFaults (name : String) (spec : PositionSpec) : List String :=
  match spec.preset with
  | some p =>
    if spec.normalized && !p.inUnitSquare then
      [s!"position \"{name}\" default is not normalized"]
    else []
  | none => []

/-- the presets that break their own rules -/
def presetFaults (s : Schema) : List String :=
  s.labels.entries.flatMap (fun e => labelFaults e.1 e.2) ++
    s.values.entries.flatMap (fun e => valueFaults e.1 e.2) ++
    s.positions.entries.flatMap (fun e => positionFaults e.1 e.2)

end Schema

/-! ### schemas as documents -/

/-- an optional part of a document; `null` if it is absent -/
def Json.optional (f : α → Json) : Option α → Json
  | none => .null
  | some v => f v

def Json.natural (n : Nat) : Json := .integer n

namespace LabelSpec

def toJson (s : LabelSpec) : Json :=
  .object
    [("default", .optional .text s.preset), ("required", .boolean s.required),
     ("maxLen", .optional .natural s.maxLength)]

def decoder : Decoder LabelSpec :=
  Decoder.record "LabelSpec"
    [.of "default" (Decoder.optional Decoder.text) fun v s => { s with preset := v },
     .of "required" Decoder.boolean fun v s => { s with required := v },
     .of "maxLen" (Decoder.optional Decoder.count) fun v s => { s with maxLength := v }]
    ({} : LabelSpec) fun _ s => .ok s

end LabelSpec

namespace ValueKind

def table : List (String × ValueKind) := [("number", .number), ("string", .text)]

def name : ValueKind → String
  | .number => "number"
  | .text => "string"

end ValueKind

namespace ValueSpec

def toJson (s : ValueSpec) : Json :=
  .object
    [("default", .optional Setting.toJson s.preset), ("required", .boolean s.required),
     ("min", .optional .ofReal s.min), ("max", .optional .ofReal s.max),
     ("kind", .text s.kind.name)]

def decoder : Decoder ValueSpec :=
  Decoder.record "ValueSpec"
    [.of "default" (Decoder.optional Setting.decoder) fun v s => { s with preset := v },
     .of "required" Decoder.boolean fun v s => { s with required := v },
     .of "min" (Decoder.optional Decoder.real) fun v s => { s with min := v },
     .of "max" (Decoder.optional Decoder.real) fun v s => { s with max := v },
     .of "kind" (Decoder.variant ValueKind.table) fun v s => { s with kind := v }]
    ({} : ValueSpec) fun _ s => .ok s

end ValueSpec

namespace FlagSpec

def toJson (s : FlagSpec) : Json := .object [("default", .optional .boolean s.preset)]

def decoder : Decoder FlagSpec :=
  Decoder.record "VisibilitySpec"
    [.of "default" (Decoder.optional Decoder.boolean) fun v s => { s with preset := v }]
    ({} : FlagSpec) fun _ s => .ok s

end FlagSpec

namespace PositionSpec

def toJson (s : PositionSpec) : Json :=
  .object
    [("default", .optional Point.toJson s.preset), ("required", .boolean s.required),
     ("normalized", .boolean s.normalized)]

def decoder : Decoder PositionSpec :=
  Decoder.record "PositionSpec"
    [.of "default" (Decoder.optional Point.decoder) fun v s => { s with preset := v },
     .of "required" Decoder.boolean fun v s => { s with required := v },
     .of "normalized" Decoder.boolean fun v s => { s with normalized := v }]
    ({} : PositionSpec) fun _ s => .ok s

end PositionSpec

namespace Schema

def toJson (s : Schema) : Json :=
  .object
    [("labels", .ofDict LabelSpec.toJson s.labels), ("values", .ofDict ValueSpec.toJson s.values),
     ("visibility", .ofDict FlagSpec.toJson s.visibility),
     ("positions", .ofDict PositionSpec.toJson s.positions)]

def decoder : Decoder Schema :=
  Decoder.record "ParamSchema"
    [.of "labels" (Decoder.dict LabelSpec.decoder) fun v s => { s with labels := v },
     .of "values" (Decoder.dict ValueSpec.decoder) fun v s => { s with values := v },
     .of "visibility" (Decoder.dict FlagSpec.decoder) fun v s => { s with visibility := v },
     .of "positions" (Decoder.dict PositionSpec.decoder) fun v s => { s with positions := v }]
    ({} : Schema) fun _ s => .ok s

end Schema

end Figures
