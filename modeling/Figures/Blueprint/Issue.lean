import Figures.Blueprint.Basic
import Figures.Formula.Report
import Figures.Formula.Value

/-!
# Malformed formulas in a blueprint

* `Issue`              a text in double braces that is no formula, with its place
* `Json.leaves`        the texts in a value with their places
* `Blueprint.issues`   every malformed formula, in the order of layers, shapes and fields

Nothing is evaluated here.
-/

namespace Figures

structure Issue where
  /-- layer, shape, field, and the way down from the field -/
  location : String
  /-- the formula without the braces -/
  source : String
  error : FormulaError
  deriving Repr, DecidableEq

namespace Issue

def report (issue : Issue) : String := issue.error.report issue.source issue.location

end Issue

namespace Json

mutual

/-- the texts in a value with their places below `location` -/
def leaves (location : String) : Json → List (String × String)
  | .text s => [(location, s)]
  | .list items => leavesOfItems location 0 items
  | .object members => leavesOfMembers location members
  | _ => []

def leavesOfItems (location : String) (i : Nat) : List Json → List (String × String)
  | [] => []
  | v :: rest => leaves s!"{location}[{i}]" v ++ leavesOfItems location (i + 1) rest

def leavesOfMembers (location : String) : List (String × Json) → List (String × String)
  | [] => []
  | (key, v) :: rest => leaves s!"{location}.{key}" v ++ leavesOfMembers location rest

end

end Json

/-- the issue with a text, if it is a malformed formula -/
def Issue.ofLeaf (leaf : String × String) : List Issue :=
  match Formula.body? leaf.2 with
  | none => []
  | some body =>
    match Formula.read body with
    | .ok _ => []
    | .error e => [⟨leaf.1, body, e⟩]

namespace Shape

def leaves (location : String) (s : Shape) : List (String × String) :=
  s.fields.entries.flatMap fun e => e.2.leaves s!"{location}.{e.1}"

end Shape

namespace Blueprint

def leaves (b : Blueprint) : List (String × String) :=
  b.layers.flatMap fun layer =>
    layer.named.flatMap fun e => e.2.leaves s!"{layer.id}/{e.1}"

def issues (b : Blueprint) : List Issue := b.leaves.flatMap Issue.ofLeaf

end Blueprint

end Figures
