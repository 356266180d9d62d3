import Figures.Blueprint.Basic
import Figures.Formula.Value
import Figures.Markup.Basic

/-!
# The fields of a shape

* `ShapeError`       why a shape is skipped
* `Note`             what is noted while the fields of a shape are read
* `Reading α`        reads fields; problems with single values are noted, and the value is replaced
* `Subject`          a shape with its name and the scope of its formulas
* `Subject.number`, `point`, `points`, `text?`, `flag`, `cls`, `style`    its fields, read
* `Style.names`      the style attributes that a shape may carry

Notes are kept when a shape is skipped.
-/

namespace Figures

inductive ShapeError where
  | missingField (field : String)
  | invalidField (field reason : String)
  deriving Repr, DecidableEq

def ShapeError.message : ShapeError → String
  | missingField field => s!"missing field \"{field}\""
  | invalidField field reason => s!"field \"{field}\" {reason}"

/-- what is noted while the fields of a shape are read -/
inductive Note where
  /-- a value that cannot be resolved -/
  | unresolved (field : String) (u : Unresolved)
  /-- a member of the style that is not written -/
  | dropped (key reason : String)
  deriving Repr, DecidableEq

def Note.message (name : String) : Note → String
  | unresolved field u => s!"Shape \"{name}\" field \"{field}\": {u.message}"
  | dropped key reason => s!"Shape \"{name}\" style \"{key}\" dropped: {reason}"

/-- reads fields of a shape, with notes on the way -/
abbrev Reading := ExceptT ShapeError (StateM (List Note))

/-- a shape with its name and the scope of its formulas -/
structure Subject where
  scope : Scope
  name : String
  fields : Dict Json

/-! ### style attributes -/

namespace Style

/-- the style attributes that a shape may carry -/
def names : List String :=
  ["fill", "fill-opacity", "fill-rule", "stroke", "stroke-width", "stroke-opacity",
   "stroke-dasharray", "stroke-dashoffset", "stroke-linecap", "stroke-linejoin",
   "stroke-miterlimit", "opacity", "font-size", "font-family", "font-weight", "font-style",
   "text-anchor", "dominant-baseline", "letter-spacing", "visibility"]

/-- the reference behind `url(` points into the document itself -/
def isLocal (cs : List Char) : Bool :=
  (cs.dropWhile fun c => isBlank c || c == '\x27' || c == '\x22').head? == some '#'

/-- every `url(` among some lower-case characters is followed by a reference into the document -/
def localReferences : List Char → Bool
  | [] => true
  | c :: cs =>
    (!("url(".toList.isPrefixOf (c :: cs)) || isLocal ((c :: cs).drop 4)) && localReferences cs

/-- why a style attribute is not written, if it is not -/
def objection? (key value : String) : Option String :=
  if !names.contains key then some "is not a presentation attribute"
  else if !localReferences (value.toList.map Char.toLower) then
    some "references an external resource"
  else none

end Style

namespace Subject

variable [Platform] (s : Subject)

/-- the resolved value, or else a note and a replacement -/
def settle {α : Type} (field : String) (replacement : α) : Except Unresolved α → Reading α
  | .ok v => pure v
  | .error u => do
    modify fun notes => notes ++ [.unresolved field u]
    pure replacement

def given (field : String) : Reading Json :=
  match s.fields.get? field with
  | some v => pure v
  | none => throw (.missingField field)

def number (field : String) : Reading Float := do
  let v ← s.given field
  settle field 0.0 (s.scope.number v)

def numberOr (field : String) (fallback : Float) : Reading Float :=
  match s.fields.get? field with
  | some v => settle field 0.0 (s.scope.number v)
  | none => pure fallback

/-- a number above zero -/
def positive (field : String) : Reading Float := do
  let x ← s.number field
  if 0.0 < x then pure x
  else throw (.invalidField field s!"must be positive (got {tidy 2 x})")

def point (field : String) : Reading Point := do
  let v ← s.given field
  settle field Point.origin (s.scope.point v)

def points (field : String) : Reading (List Point) := do
  let v ← s.given field
  let resolved ← settle field (Json.list []) (s.scope.resolve v)
  match resolved with
  | .list items => items.mapM fun item => settle field Point.origin (s.scope.point item)
  | _ => throw (.invalidField field "must be a list of points")

def text? (field : String) : Reading (Option String) :=
  match s.fields.get? field with
  | some v => do
    let t ← settle field "" (s.scope.text v)
    pure (some t)
  | none => pure none

/-- a switch; what is not a boolean counts as `fallback` -/
def flag (field : String) (fallback : Bool) : Reading Bool :=
  match s.fields.get? field with
  | some v => do
    let resolved ← settle field (Json.boolean fallback) (s.scope.resolve v)
    match resolved with
    | .boolean b => pure b
    | _ => pure fallback
  | none => pure fallback

def cls (fallback : String) : Reading String := do
  let given ← s.text? "class"
  pure ((given.filter fun c => !Text.isBlank c).getD fallback)

/-- an attribute for each member of `style` that may be written, a note for each other one -/
def style : Reading (List Attr) := do
  let (members, problems) := s.scope.style ((s.fields.get? "style").getD .null)
  let drops := members.filterMap fun m => (Style.objection? m.1 m.2).map (Note.dropped m.1)
  modify fun notes => notes ++ problems.map (Note.unresolved "style") ++ drops
  pure <| (members.filter fun m => (Style.objection? m.1 m.2).isNone).map fun m => ⟨m.1, m.2⟩

end Subject

end Figures
