/-!
# Base 64

* `Base64.group`    up to three bytes as four characters, `=` where a byte is missing
* `Base64.encode`   a list of bytes
-/

namespace Figures.Base64

def digit (n : Nat) : Char :=
  if n < 26 then Char.ofNat (n + 65)
  else if n < 52 then Char.ofNat (n + 71)
  else if n < 62 then Char.ofNat (n - 4)
  else if n = 62 then '+' else '/'

/-- the digit at place `k` of 24 bits, counted from the left -/
def place (n k : Nat) : Char := digit (n >>> (6 * (3 - k)) % 64)

/-- three bytes are four digits; two or one at the end are padded -/
def encode : List UInt8 → List Char
  | a :: b :: c :: rest =>
    let n := a.toNat * 65536 + b.toNat * 256 + c.toNat
    place n 0 :: place n 1 :: place n 2 :: place n 3 :: encode rest
  | [a, b] =>
    let n := a.toNat * 65536 + b.toNat * 256
    [place n 0, place n 1, place n 2, '=']
  | [a] =>
    let n := a.toNat * 65536
    [place n 0, place n 1, '=', '=']
  | [] => []

end Figures.Base64
