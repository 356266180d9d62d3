import Figures.Dict
import Figures.Number.Shortest

/-!
# JSON values

* `Json`             a value; whole numbers of 64 bits and other numbers are told apart
* `Json.ofReal`      a double as a value; what is not finite is `null`
* `Json.real?`       the double that a number stands for
* `Json.member?`     a member of an object
* `Json.compact`     the text without blanks
* `Json.pretty`      the text with one entry a line, two blanks a level

Objects hold their members in the order in which they are written. Where a value comes from a
dictionary or a document, that is ascending key order.
-/

namespace Figures

inductive Json where
  | null
  | boolean (b : Bool)
  | integer (n : Int)
  | real (x : Float)
  | text (s : String)
  | list (items : List Json)
  | object (members : List (String × Json))
  deriving Inhabited

namespace Json

/-- a finite double as a number; NaN and the infinities are `null` -/
def ofReal (x : Float) : Json := if x.isFinite then .real x else .null

/-- the double nearest to a whole number -/
def ofInteger (n : Int) : Float :=
  let x := Binary.nearest n.natAbs 0
  if n < 0 then -x else x

def real? : Json → Option Float
  | .integer n => some (ofInteger n)
  | .real x => some x
  | _ => none

def member? (name : String) : Json → Option Json
  | .object members => members.lookup name
  | _ => none

def ofDict (f : α → Json) (d : Dict α) : Json :=
  .object (d.entries.map fun e => (e.1, f e.2))

def hexByte (n : Nat) : String :=
  String.ofList [Nat.digitChar (n / 16 % 16), Nat.digitChar (n % 16)]

/-- a character of a quoted text: quotes, backslashes and control characters are escaped -/
def escapeChar (c : Char) : String :=
  if c = '\x22' then "\\\""
  else if c = '\\' then "\\\\"
  else if c = '\n' then "\\n"
  else if c = '\r' then "\\r"
  else if c = '\t' then "\\t"
  else if c.toNat = 8 then "\\b"
  else if c.toNat = 12 then "\\f"
  else if c.toNat < 32 then "\\u00" ++ hexByte c.toNat
  else String.ofList [c]

def quote (s : String) : String :=
  "\"" ++ s.toList.foldl (fun acc c => acc ++ escapeChar c) "" ++ "\""

/-- the text of a value that has no parts -/
def scalar : Json → String
  | .null => "null"
  | .boolean b => if b then "true" else "false"
  | .integer n => toString n
  | .real x => (precise? x).getD "null"
  | .text s => quote s
  | _ => ""

mutual

/-- the text without blanks -/
def compact : Json → String
  | .list items => "[" ++ compactItems true items ++ "]"
  | .object members => "\x7b" ++ compactMembers true members ++ "\x7d"
  | v => v.scalar

def compactItems (first : Bool) : List Json → String
  | [] => ""
  | v :: rest => (if first then "" else ",") ++ compact v ++ compactItems false rest

def compactMembers (first : Bool) : List (String × Json) → String
  | [] => ""
  | (k, v) :: rest =>
    (if first then "" else ",") ++ quote k ++ ":" ++ compact v ++ compactMembers false rest

end

def margin (level : Nat) : String := String.ofList (List.replicate (2 * level) ' ')

mutual

/-- the text with one entry a line; `level` is the level of the value itself -/
def prettyAt (level : Nat) : Json → String
  | .list [] => "[]"
  | .list items => "[" ++ prettyItems (level + 1) true items ++ "\n" ++ margin level ++ "]"
  | .object [] => "\x7b\x7d"
  | .object members =>
    "\x7b" ++ prettyMembers (level + 1) true members ++ "\n" ++ margin level ++ "\x7d"
  | v => v.scalar

def prettyItems (level : Nat) (first : Bool) : List Json → String
  | [] => ""
  | v :: rest =>
    (if first then "\n" else ",\n") ++ margin level ++ prettyAt level v ++
      prettyItems level false rest

def prettyMembers (level : Nat) (first : Bool) : List (String × Json) → String
  | [] => ""
  | (k, v) :: rest =>
    (if first then "\n" else ",\n") ++ margin level ++ quote k ++ ": " ++ prettyAt level v ++
      prettyMembers level false rest

end

/-- the text with one entry a line, two blanks a level -/
def pretty (v : Json) : String := v.prettyAt 0

end Json

end Figures
