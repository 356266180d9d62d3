import Figures.Number.Reading
import Figures.Number.Whole

/-!
# Scalars of configuration files

* `Toml.isScalar cs`   the characters are a boolean, a whole number of 64 bits, a number, or a date
                       or time

Palettes only hold texts and tables. Other scalars are checked, and their values are not kept.
-/

namespace Figures.Toml

/-- digits of a class, single underscores between them; at least one digit -/
def isDigits (digit : Char → Bool) : List Char → Bool
  | [] => false
  | [c] => digit c
  | c :: '_' :: d :: rest => digit c && isDigits digit (d :: rest)
  | c :: rest => digit c && isDigits digit rest

/-- the value of digits to a base, underscores skipped -/
def valueOf (base : Nat) (cs : List Char) : Nat :=
  cs.foldl (fun n c =>
    if c = '_' then n
    else if c.isDigit then base * n + (c.toNat - 48)
    else base * n + (c.toLower.toNat - 87)) 0

/-- a decimal whole number without its sign: no leading zero -/
def isDecimal : List Char → Bool
  | ['0'] => true
  | '0' :: _ => false
  | cs => isDigits Char.isDigit cs

def isHex (c : Char) : Bool :=
  c.isDigit || ('a' ≤ c && c ≤ 'f') || ('A' ≤ c && c ≤ 'F')

/-- a whole number of 64 bits with a sign -/
def isInteger (cs : List Char) : Bool :=
  match cs with
  | '0' :: 'x' :: ds => isDigits isHex ds && valueOf 16 ds < signBit
  | '0' :: 'o' :: ds => isDigits (fun c => '0' ≤ c && c ≤ '7') ds && valueOf 8 ds < signBit
  | '0' :: 'b' :: ds => isDigits (fun c => c = '0' || c = '1') ds && valueOf 2 ds < signBit
  | cs =>
    let (negative, ds) := splitSign cs
    isDecimal ds && valueOf 10 ds < signBit + (if negative then 1 else 0)

/-- a power of ten: sign and digits -/
def isPower (cs : List Char) : Bool := isDigits Char.isDigit (splitSign cs).2

/-- places after a point, and a power of ten if one follows -/
def isPlaces (cs : List Char) : Bool :=
  let places := cs.takeWhile fun c => c.isDigit || c = '_'
  let rest := cs.drop places.length
  isDigits Char.isDigit places &&
    match rest with
    | [] => true
    | c :: rest => (c = 'e' || c = 'E') && isPower rest

/-- a number with places or a power of ten, in the range of doubles; or `inf` or `nan` -/
def isReal (cs : List Char) : Bool :=
  let body := (splitSign cs).2
  if body = "inf".toList ∨ body = "nan".toList then true
  else
    let whole := body.takeWhile fun c => c.isDigit || c = '_'
    let shape := isDecimal whole &&
      match body.drop whole.length with
      | '.' :: rest => isPlaces rest
      | c :: rest => (c = 'e' || c = 'E') && isPower rest
      | [] => false
    shape && match readDecimal? (body.filter (· ≠ '_')) with
      | some x => !x.isInf
      | none => false

/-- two digits with a value between bounds -/
def pairIn (lo hi : Nat) (a b : Char) : Bool :=
  a.isDigit && b.isDigit && lo ≤ digitsValue 0 [a, b] && digitsValue 0 [a, b] ≤ hi

def daysIn (year month : Nat) : Nat :=
  if month = 2 then (if year % 4 = 0 ∧ (year % 100 ≠ 0 ∨ year % 400 = 0) then 29 else 28)
  else if month = 4 ∨ month = 6 ∨ month = 9 ∨ month = 11 then 30 else 31

/-- year, month and day, and what follows -/
def dropDate? : List Char → Option (List Char)
  | a :: b :: c :: d :: '-' :: m :: n :: '-' :: x :: y :: rest =>
    if [a, b, c, d].all Char.isDigit && pairIn 1 12 m n &&
        pairIn 1 (daysIn (digitsValue 0 [a, b, c, d]) (digitsValue 0 [m, n])) x y
    then some rest else none
  | _ => none

/-- hour, minute, second and parts of a second, and what follows -/
def dropTime? : List Char → Option (List Char)
  | h :: i :: ':' :: m :: n :: ':' :: s :: t :: rest =>
    if pairIn 0 23 h i && pairIn 0 59 m n && pairIn 0 60 s t then
      match rest with
      | '.' :: rest =>
        if (rest.takeWhile Char.isDigit).isEmpty then none else some (rest.dropWhile Char.isDigit)
      | rest => some rest
    else none
  | _ => none

/-- an offset from universal time, or nothing -/
def isOffset : List Char → Bool
  | [] => true
  | ['Z'] => true
  | ['z'] => true
  | [c, h, i, ':', m, n] => (c = '+' || c = '-') && pairIn 0 23 h i && pairIn 0 59 m n
  | _ => false

def isDateTime (cs : List Char) : Bool :=
  match dropDate? cs with
  | some [] => true
  | some (c :: rest) =>
    (c = 'T' || c = 't' || c = ' ') &&
      match dropTime? rest with
      | some rest => isOffset rest
      | none => false
  | none => dropTime? cs == some []

def isScalar (cs : List Char) : Bool :=
  cs = "true".toList || cs = "false".toList || isInteger cs || isReal cs || isDateTime cs

end Figures.Toml
