import Figures.Param.Merge
import Figures.Param.Diagnosis

/-!
# Checking parameters against a schema

* `Policy`                    whether malformed switches are errors, or are settled before drawing
* `Finding`                   what can be found, with its wording in `Finding.message`
* `checkLabel`, `checkValue`, `checkPosition`, `checkFlag`, `checkUndeclared`
                              the findings at one key
* `Params.findings`           all findings: labels, values, positions, switches, undeclared
                              positions, each by ascending key
* `Params.check`              the findings as a diagnosis

The findings at a key depend on the specification and the parameter at that key only.
-/

namespace Figures

/-- how malformed switches are treated -/
inductive Policy where
  | strict
  | lenient
  deriving Repr, DecidableEq

inductive Finding where
  | labelMissing (name : String)
  | labelTooLong (name : String) (most got : Nat)
  | valueMissing (name : String)
  | valueNotNumber (name : String) (value : Setting)
  | valueTooSmall (name : String) (value bound : Float)
  | valueTooLarge (name : String) (value bound : Float)
  | positionMissing (name : String)
  | positionMalformed (name : String)
  | positionOutside (name : String) (at' : Point)
  | positionIgnored (name : String)
  | flagMalformed (name : String) (value : Json)

namespace Finding

def message : Finding → String
  | labelMissing name => s!"Label \"{name}\" is required"
  | labelTooLong name most got => s!"Label \"{name}\" exceeds max length of {most} (got {got})"
  | valueMissing name => s!"Value \"{name}\" is required"
  | valueNotNumber name value => s!"Value \"{name}\" must be a number (got {value.shown})"
  | valueTooSmall name value bound =>
    s!"Value \"{name}\" ({plain value}) is below minimum {plain bound}"
  | valueTooLarge name value bound =>
    s!"Value \"{name}\" ({plain value}) is above maximum {plain bound}"
  | positionMissing name => s!"Position \"{name}\" is required"
  | positionMalformed name => s!"Position \"{name}\" must have numeric x and y"
  | positionOutside name p =>
    s!"Position \"{name}\" ({plain p.x}, {plain p.y}) is outside the normalized range [0, 1]"
  | positionIgnored name => s!"Position \"{name}\" is malformed and will be ignored"
  | flagMalformed name value =>
    s!"Visibility \"{name}\" must be a boolean (got {value.compact})"

/-- findings that leave the figure drawable -/
def isWarning : Finding → Bool
  | labelTooLong .. | valueTooSmall .. | valueTooLarge .. | positionOutside ..
  | positionIgnored .. => true
  | _ => false

def diagnosis (f : Finding) : Diagnosis :=
  if f.isWarning then .warning f.message else .error f.message

end Finding

def ifRequired (required : Bool) (f : Finding) : List Finding := if required then [f] else []

/-- a label must be there if it is required, and not be too long -/
def checkLabel (name : String) (spec : LabelSpec) (given : Option String) : List Finding :=
  match given.filter fun s => !Text.isBlank s with
  | none => ifRequired spec.required (.labelMissing name)
  | some s =>
    match spec.maxLength with
    | some most =>
      if most < s.toList.length then [.labelTooLong name most s.toList.length] else []
    | none => []

def checkBounds (name : String) (spec : ValueSpec) (x : Float) : List Finding :=
  (match spec.min with
    | some lo => if x < lo then [.valueTooSmall name x lo] else []
    | none => []) ++
  (match spec.max with
    | some hi => if hi < x then [.valueTooLarge name x hi] else []
    | none => [])

/-- a value must be there if it is required; if a number is asked for, it must denote one -/
def checkValue (name : String) (spec : ValueSpec) (given : Option Setting) : List Finding :=
  match given.filter fun v => !v.isBlank with
  | none => ifRequired spec.required (.valueMissing name)
  | some v =>
    match spec.kind with
    | .text => []
    | .number =>
      match v.number? with
      | none => [.valueNotNumber name v]
      | some x => checkBounds name spec x

/-- a position must be there if it is required, be a pair of numbers, and lie where it should -/
def checkPosition (name : String) (spec : PositionSpec) (given : Option Position) :
    List Finding :=
  match given with
  | none => ifRequired spec.required (.positionMissing name)
  | some position =>
    match position.point? with
    | none => [.positionMalformed name]
    | some p => if spec.normalized && !p.inUnitSquare then [.positionOutside name p] else []

/-- under the strict policy a declared switch must be a boolean -/
def checkFlag (policy : Policy) (name : String) (given : Option Flag) : List Finding :=
  match policy, given with
  | .strict, some (.malformed v) => [.flagMalformed name v]
  | _, _ => []

/-- a malformed position that is not declared cannot be drawn either -/
def checkUndeclared (declared : Dict PositionSpec) (name : String) (given : Position) :
    List Finding :=
  match given with
  | .malformed _ => if declared.contains name then [] else [.positionIgnored name]
  | .known _ => []

namespace Params

def findings (p : Params) (s : Schema) (policy : Policy) : List Finding :=
  s.labels.entries.flatMap (fun e => checkLabel e.1 e.2 (p.labels.get? e.1)) ++
    s.values.entries.flatMap (fun e => checkValue e.1 e.2 (p.values.get? e.1)) ++
    s.positions.entries.flatMap (fun e => checkPosition e.1 e.2 (p.positions.get? e.1)) ++
    s.visibility.entries.flatMap (fun e => checkFlag policy e.1 (p.visibility.get? e.1)) ++
    p.positions.entries.flatMap (fun e => checkUndeclared s.positions e.1 e.2)

/-- the findings as warnings and errors -/
def check (p : Params) (s : Schema) (policy : Policy) : Diagnosis :=
  .concat ((p.findings s policy).map Finding.diagnosis)

end Params

end Figures
