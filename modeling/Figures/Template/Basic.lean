import Figures.Param.Check
import Figures.Sheet.Pen

/-!
# Templates

* `TemplateError`   why a figure cannot be drawn from its parameters
* `Outcome`         what comes of drawing: an image, an error, or an abort of a caller's own
                    function
* `Template`        a figure with an id, a title, a category, its schema and its drawing function
* `Template.ofScene`  a template from a function that makes a scene
-/

namespace Figures

/-- why a figure cannot be drawn from its parameters -/
inductive TemplateError where
  /-- the parameters describe a figure that does not exist -/
  | geometry (reason : String)
  /-- a parameter is there but cannot be used -/
  | invalid (name reason : String)
  /-- a parameter is not there -/
  | missing (name : String)
  deriving Repr, DecidableEq

def TemplateError.message : TemplateError → String
  | geometry reason => reason
  | invalid name reason => s!"invalid parameter {name}: {reason}"
  | missing name => s!"missing parameter: {name}"

/-- what comes of drawing. A function that a caller registers may also abort, with or without a
message -/
inductive Outcome where
  | drawn (image : Image)
  | failed (error : TemplateError)
  | aborted (message : Option String)

/-- a figure that can be drawn from parameters -/
structure Template where
  id : String
  title : String
  category : String
  schema : Schema
  draw : Params → Context → Outcome

def Template.ofScene [Numerals] (id title category : String) (schema : Schema)
    (scene : Params → Pen → Except TemplateError Scene) : Template where
  id := id
  title := title
  category := category
  schema := schema
  draw params ctx :=
    match scene params (Pen.of ctx) with
    | .ok s => .drawn (s.image ctx)
    | .error e => .failed e

namespace Params

/-- a number that a figure cannot do without -/
def required (p : Params) (name : String) : Except TemplateError Float :=
  match p.number? name with
  | some x => .ok x
  | none => .error (.missing name)

/-- a number above zero -/
def positive (p : Params) (name : String) : Except TemplateError Float := do
  let x ← p.required name
  if x ≤ 0.0 then .error (.invalid name s!"must be positive (got {plain x})") else .ok x

/-- the caller's label, or else a computed text -/
def labelOr (p : Params) (name fallback : String) : String :=
  let label := p.label name
  if Text.isBlank label then fallback else label

end Params

namespace Template

def measure [Numerals] (x : Float) (unit : String) : String :=
  let unit := Text.trim unit
  if unit.isEmpty then tidy 2 x else tidy 2 x ++ " " ++ unit

def degreesText [Numerals] (x : Float) : String := tidy 1 x ++ "°"

/-- the multiples of `step` from `lo` to `hi`; none if they cannot be counted or are more than
`limit` -/
def ticks (lo hi step : Float) (limit : Nat) : Option (List Float) :=
  if step.isNaN || lo.isNaN || hi.isNaN || step ≤ 0.0 || hi < lo then none
  else
    let first := ceiling (lo / step)
    let last := floor (hi / step)
    let count := last - first + 1.0
    if !count.isFinite then none
    else if count < 1.0 then some []
    else if Float.ofNat limit < count then none
    else some ((List.range (toCount word64 count)).map fun k => (first + Float.ofNat k) * step)

end Template

end Figures
