import Figures.Formula.Parser
import Figures.Json.Basic
import Figures.Number.Fixed
import Figures.Plane.Point
import Figures.Text.Blank

/-!
# Values of formulas

* `Json.number`, `Json.shownText`, `Json.point`    a value as a number, as text, as a point
* `Helper`                                         the functions that formulas can call
* `Formula.eval`                                   the value of a formula in a scope
* `Scope`                                          the values that formulas see
* `Scope.evaluate`                                 the value of a formula's text
* `Scope.resolve`   a value with the formula in double braces replaced
* `Scope.number`, `Scope.text`, `Scope.point`, `Scope.style`    the same, read as what a shape needs

Whatever cannot be evaluated comes back as an `Unresolved`; nothing is drawn here.
-/

namespace Figures

namespace Json

/-- the number of a value; a text may denote a finite one -/
def number (context : String) : Json → Except FormulaError Float
  | .integer n => .ok (ofInteger n)
  | .real x => .ok x
  | .text s =>
    match (readNumber? (Text.trim s)).filter Float.isFinite with
    | some x => .ok x
    | none => .error (.mistyped context s!"\"{s}\" is not a number")
  | v => .error (.mistyped context ("expected a number, got " ++ v.compact))

def shownText : Json → String
  | .text s => s
  | .null => ""
  | .integer n => tidy 6 (ofInteger n)
  | .real x => tidy 6 x
  | v => v.compact

def coordinate (context axis : String) (v : Json) : Except FormulaError Float :=
  match v.member? axis with
  | some c => c.number context
  | none => .error (.mistyped context ("point is missing " ++ axis))

def point (context : String) (v : Json) : Except FormulaError Point :=
  match v with
  | .object _ => do
    let x ← coordinate context "x" v
    let y ← coordinate context "y" v
    .ok ⟨x, y⟩
  | _ => .error (.mistyped context "expected a point")

def ofPoint (p : Point) : Json := .object [("x", ofReal p.x), ("y", ofReal p.y)]

/-- a value as messages quote it -/
def described : Json → String
  | .text s => s
  | v => v.compact

end Json

/-- the functions that formulas can call -/
inductive Helper where
  | degToRad
  | radToDeg
  | midpoint
  | distance
  | clamp
  | add
  | sub
  | mul
  | div
  deriving Repr, DecidableEq

namespace Helper

variable [Platform]

def name : Helper → String
  | degToRad => "degToRad"
  | radToDeg => "radToDeg"
  | midpoint => "midpoint"
  | distance => "distance"
  | clamp => "clamp"
  | add => "add"
  | sub => "sub"
  | mul => "mul"
  | div => "div"

def all : List Helper := [degToRad, radToDeg, midpoint, distance, clamp, add, sub, mul, div]

def ofName? (s : String) : Option Helper := all.find? fun h => h.name == s

def arity : Helper → Nat
  | degToRad | radToDeg => 1
  | clamp => 3
  | _ => 2

def apply1 (h : Helper) (a : Json) : Except FormulaError Json := do
  let x ← a.number h.name
  match h with
  | radToDeg => .ok (.ofReal (degrees x))
  | _ => .ok (.ofReal (radians x))

/-- the value of a helper with two arguments; a divisor is looked at before its dividend -/
def apply2 (h : Helper) (a b : Json) : Except FormulaError Json :=
  match h with
  | midpoint => do
    let p ← a.point h.name
    let q ← b.point h.name
    .ok (.ofPoint (Point.midpoint p q))
  | distance => do
    let p ← a.point h.name
    let q ← b.point h.name
    .ok (.ofReal (Point.distance p q))
  | div => do
    let y ← b.number h.name
    if y == 0.0 then .error .divisionByZero
    else
      let x ← a.number h.name
      .ok (.ofReal (x / y))
  | _ => do
    let x ← a.number h.name
    let y ← b.number h.name
    match h with
    | sub => .ok (.ofReal (x - y))
    | mul => .ok (.ofReal (x * y))
    | _ => .ok (.ofReal (x + y))

/-- a number kept between two bounds -/
def apply3 (h : Helper) (a b c : Json) : Except FormulaError Json := do
  let x ← a.number h.name
  let lo ← b.number h.name
  let hi ← c.number h.name
  if hi < lo then .error (.mistyped h.name "lower bound exceeds upper bound")
  else .ok (.ofReal (Figures.clamp lo hi x))

/-- the value of a helper; the number of its arguments is checked first -/
def apply (h : Helper) (args : List Json) : Except FormulaError Json :=
  match h.arity, args with
  | 1, [a] => h.apply1 a
  | 2, [a, b] => h.apply2 a b
  | 3, [a, b, c] => h.apply3 a b c
  | n, args => .error (.arity h.name n args.length)

end Helper

def callHelper [Platform] (name : String) (args : List Json) : Except FormulaError Json :=
  match Helper.ofName? name with
  | some h => h.apply args
  | none => .error (.unknownHelper name)

namespace Formula

def listPlace? (segment : String) : Option Nat :=
  let cs := segment.toList
  if !cs.isEmpty && cs.all Char.isDigit then some (digitsValue 0 cs) else none

/-- one step down a path -/
def descend (v : Json) (segment : String) : Option Json :=
  match v with
  | .object members => members.lookup segment
  | .list items => listPlace? segment >>= fun i => items[i]?
  | _ => none

def lookup (scope : Json) (segments : List String) : Except FormulaError Json :=
  match segments.foldlM descend scope with
  | some v => .ok v
  | none => .error (.unresolved (Text.join "." segments))

mutual

/-- the value of a formula in a scope; arguments from left to right, then the call -/
def eval [Platform] (scope : Json) : Formula → Except FormulaError Json
  | number x => .ok (.ofReal x)
  | text s => .ok (.text s)
  | path segments => lookup scope segments
  | call name args => do
    let values ← evalAll scope args
    callHelper name values

/-- the values of several formulas; the first error ends it -/
def evalAll [Platform] (scope : Json) : List Formula → Except FormulaError (List Json)
  | [] => .ok []
  | f :: rest => do
    let v ← eval scope f
    let vs ← evalAll scope rest
    .ok (v :: vs)

end

def openingBraces : String := String.ofList ['{', '{']

def closingBraces : String := String.ofList ['}', '}']

/-- the text of the formula in a text that stands in double braces as a whole -/
def body? (s : String) : Option String := do
  let rest ← Text.dropHead? openingBraces s
  let body ← Text.dropTail? closingBraces rest
  if body.isEmpty then none else some body

end Formula

/-- an expression that has no value, with the reason -/
structure Unresolved where
  expression : String
  error : FormulaError
  deriving Repr, DecidableEq

def Unresolved.message (u : Unresolved) : String :=
  s!"Unresolved expression \"{u.expression}\": {u.error.message}"

/-- the values that formulas see -/
structure Scope where
  values : Json

namespace Scope

variable [Platform] (scope : Scope)

/-- the value of a formula's text; blanks around it are ignored -/
def evaluate (source : String) : Except Unresolved Json :=
  (Formula.read (Text.trim source) >>= Formula.eval scope.values).mapError (Unresolved.mk source)

/-- a formula in double braces evaluated; any other value as it is -/
def resolve (v : Json) : Except Unresolved Json :=
  match v with
  | .text s =>
    match Formula.body? s with
    | some body => scope.evaluate body
    | none => .ok v
  | v => .ok v

def number (v : Json) : Except Unresolved Float := do
  let resolved ← scope.resolve v
  (resolved.number "value").mapError (Unresolved.mk v.described)

def text (v : Json) : Except Unresolved String :=
  (scope.resolve v).map Json.shownText

/-- a coordinate of a resolved point; `v` is the value as it was given -/
def coordinate (v resolved : Json) (axis : String) : Except Unresolved Float :=
  match resolved.member? axis with
  | some c => scope.number c
  | none => .error ⟨v.described, .mistyped "point" ("missing " ++ axis)⟩

/-- the point of a value; its members may be formulas too -/
def point (v : Json) : Except Unresolved Point := do
  let resolved ← scope.resolve v
  match resolved with
  | .object _ =>
    let x ← scope.coordinate v resolved "x"
    let y ← scope.coordinate v resolved "y"
    .ok ⟨x, y⟩
  | _ => .error ⟨v.described, .mistyped "point" "expected an object with x and y"⟩

/-- the texts of the members of an object, and the problems with those that have none -/
def style (v : Json) : List (String × String) × List Unresolved :=
  match v with
  | .object members =>
    (members.filterMap fun m => (scope.text m.2).toOption.map fun t => (m.1, t),
     members.filterMap fun m =>
      match scope.text m.2 with
      | .ok _ => none
      | .error u => some u)
  | _ => ([], [])

end Scope

end Figures
