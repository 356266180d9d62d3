import Figures.Toml.Scalar

/-!
# Keys and values of configuration files

* `Value`          a text, a scalar that is checked but not kept, a list, or a table in braces
* `readText?`      the four kinds of quoted texts
* `readKey?`       a dotted key
* `readValue?`     a value

Every reader takes the characters at hand and returns what it read with the rest.
-/

namespace Figures.Toml

inductive Value where
  | text (s : String)
  | scalar
  | list (items : List Value)
  | table (entries : List (String × Value))
  deriving Inhabited

/-- blanks within a line -/
def isGap (c : Char) : Bool := c = ' ' || c = '\t'

def skipGap (cs : List Char) : List Char := cs.dropWhile isGap

/-- a character that may stand in a comment or a text: no control character but the tab -/
def isPlain (c : Char) : Bool := c = '\t' || (32 ≤ c.toNat && c.toNat ≠ 127)

def dropLineEnd? : List Char → Option (List Char)
  | '\n' :: rest => some rest
  | '\r' :: '\n' :: rest => some rest
  | _ => none

def skipComment : List Char → List Char
  | '#' :: rest => rest.dropWhile isPlain
  | cs => cs

/-- blanks, comments and line ends -/
def skipLines : Nat → List Char → List Char
  | 0, cs => cs
  | fuel + 1, cs =>
    let cs := skipComment (skipGap cs)
    match dropLineEnd? cs with
    | some rest => skipLines fuel rest
    | none => cs

def hexChar? (ds : List Char) : Option Char :=
  if ds.all isHex then
    let n := valueOf 16 ds
    if n < 0xD800 ∨ (0xDFFF < n ∧ n < 0x110000) then some (Char.ofNat n) else none
  else none

/-- the character of an escape and the rest behind it -/
def readEscape? : List Char → Option (Char × List Char)
  | 'b' :: rest => some (Char.ofNat 8, rest)
  | 't' :: rest => some ('\t', rest)
  | 'n' :: rest => some ('\n', rest)
  | 'f' :: rest => some (Char.ofNat 12, rest)
  | 'r' :: rest => some ('\r', rest)
  | '\x22' :: rest => some ('\x22', rest)
  | '\\' :: rest => some ('\\', rest)
  | 'u' :: a :: b :: c :: d :: rest => (hexChar? [a, b, c, d]).map (·, rest)
  | 'U' :: a :: b :: c :: d :: e :: f :: g :: h :: rest =>
    (hexChar? [a, b, c, d, e, f, g, h]).map (·, rest)
  | _ => none

/-- a text in single quotes on one line -/
def readLiteral? (cs : List Char) : Option (String × List Char) :=
  let body := cs.takeWhile fun c => isPlain c && c ≠ '\x27'
  match cs.drop body.length with
  | '\x27' :: rest => some (String.ofList body, rest)
  | _ => none

/-- a text in double quotes on one line; `acc` is what was read, reversed -/
def readBasic? : Nat → List Char → List Char → Option (String × List Char)
  | 0, _, _ => none
  | fuel + 1, acc, cs =>
    match cs with
    | '\x22' :: rest => some (String.ofList acc.reverse, rest)
    | '\\' :: rest => do
      let (c, rest) ← readEscape? rest
      readBasic? fuel (c :: acc) rest
    | c :: rest => if isPlain c then readBasic? fuel (c :: acc) rest else none
    | [] => none

/-- the blanks and line ends after a backslash at the end of a line; there is at least one line
end -/
def skipContinuation? (cs : List Char) : Option (List Char) :=
  match dropLineEnd? (skipGap cs) with
  | none => none
  | some rest => some (rest.dropWhile fun c => isGap c || c = '\n' || c = '\r')

/-- a text over several lines between three quotes `q`; up to two quotes may stand before the end.
`escapes` tells whether backslashes escape -/
def readLong? (q : Char) (escapes : Bool) :
    Nat → List Char → List Char → Option (String × List Char)
  | 0, _, _ => none
  | fuel + 1, acc, cs =>
    match cs with
    | [] => none
    | '\r' :: '\n' :: rest => readLong? q escapes fuel ('\n' :: acc) rest
    | '\n' :: rest => readLong? q escapes fuel ('\n' :: acc) rest
    | c :: rest =>
      if c = q then
        let quotes := cs.takeWhile (· = q)
        let n := quotes.length
        if n < 3 then readLong? q escapes fuel (quotes ++ acc) (cs.drop n)
        else if n ≤ 5 then
          some (String.ofList (List.replicate (n - 3) q ++ acc).reverse, cs.drop n)
        else none
      else if escapes ∧ c = '\\' then
        match readEscape? rest with
        | some (x, rest) => readLong? q escapes fuel (x :: acc) rest
        | none =>
          match skipContinuation? rest with
          | some rest => readLong? q escapes fuel acc rest
          | none => none
      else if isPlain c then readLong? q escapes fuel (c :: acc) rest
      else none

/-- a line end right behind the opening quotes does not count -/
def dropFirstLineEnd (cs : List Char) : List Char := (dropLineEnd? cs).getD cs

def readText? (cs : List Char) : Option (String × List Char) :=
  let fuel := cs.length + 1
  match cs with
  | '\x22' :: '\x22' :: '\x22' :: rest => readLong? '\x22' true fuel [] (dropFirstLineEnd rest)
  | '\x27' :: '\x27' :: '\x27' :: rest => readLong? '\x27' false fuel [] (dropFirstLineEnd rest)
  | '\x22' :: rest => readBasic? fuel [] rest
  | '\x27' :: rest => readLiteral? rest
  | _ => none

def isBare (c : Char) : Bool := c.isAlphanum || c = '_' || c = '-'

/-- one part of a key: bare, or quoted on one line -/
def readPart? (cs : List Char) : Option (String × List Char) :=
  match cs with
  | '\x22' :: rest => readBasic? (cs.length + 1) [] rest
  | '\x27' :: rest => readLiteral? rest
  | cs =>
    let part := cs.takeWhile isBare
    if part.isEmpty then none else some (String.ofList part, cs.drop part.length)

/-- a dotted key and the rest behind it, blanks skipped -/
def readKey? : Nat → List Char → Option (List String × List Char)
  | 0, _ => none
  | fuel + 1, cs => do
    let (part, rest) ← readPart? (skipGap cs)
    match skipGap rest with
    | '.' :: rest =>
      let (parts, rest) ← readKey? fuel rest
      some (part :: parts, rest)
    | rest => some ([part], rest)

def isScalarChar (c : Char) : Bool :=
  c.isAlphanum || c = '_' || c = '-' || c = '+' || c = '.' || c = ':'

/-- a scalar; a date and a time may stand with a blank between them -/
def readScalar? (cs : List Char) : Option (Value × List Char) :=
  let word := cs.takeWhile isScalarChar
  let rest := cs.drop word.length
  let long := match dropDate? word, rest with
    | some [], ' ' :: more =>
      let time := more.takeWhile isScalarChar
      if time.isEmpty then none else some (word ++ ' ' :: time, more.drop time.length)
    | _, _ => none
  match long with
  | some (both, rest') =>
    if isScalar both then some (.scalar, rest')
    else if isScalar word then some (.scalar, rest) else none
  | none => if isScalar word then some (.scalar, rest) else none

/-- a value put at a dotted key inside braces; tables on the way that braces made are closed -/
def putAt (value : Value) : List String → List (String × (Bool × Value)) →
    Option (List (String × (Bool × Value)))
  | [], _ => none
  | [key], entries =>
    if (entries.lookup key).isSome then none else some (entries ++ [(key, (false, value))])
  | key :: path, entries =>
    match entries.lookup key with
    | none => do
      let inner ← nested path
      some (entries ++ [(key, (true, inner))])
    | some (true, .table inner) => do
      let inner ← extend path inner
      some (entries.map fun e => if e.1 = key then (key, (true, .table inner)) else e)
    | some _ => none
where
  /-- tables around the value, one a part of the key -/
  nested : List String → Option Value
    | [] => some value
    | key :: path => (nested path).map fun v => .table [(key, v)]
  /-- the value put at a dotted key of a table that dotted keys made -/
  extend : List String → List (String × Value) → Option (List (String × Value))
    | [], _ => none
    | key :: path, entries =>
      match entries.lookup key, path with
      | none, path => (nested path).map fun v => entries ++ [(key, v)]
      | some (.table inner), path@(_ :: _) =>
        (extend path inner).map fun inner =>
          entries.map fun e => if e.1 = key then (key, .table inner) else e
      | some _, _ => none

mutual

def readValue? : Nat → List Char → Option (Value × List Char)
  | 0, _ => none
  | fuel + 1, cs =>
    match cs with
    | '\x22' :: _ => (readText? cs).map fun (s, rest) => (.text s, rest)
    | '\x27' :: _ => (readText? cs).map fun (s, rest) => (.text s, rest)
    | '[' :: rest => readItems? fuel [] rest
    | '\x7b' :: rest =>
      match skipGap rest with
      | '\x7d' :: rest => some (.table [], rest)
      | rest => readEntries? fuel [] rest
    | cs => readScalar? cs

/-- the items of a list, over any lines, with or without a comma at the end -/
def readItems? : Nat → List Value → List Char → Option (Value × List Char)
  | 0, _, _ => none
  | fuel + 1, acc, cs =>
    match skipLines (cs.length + 1) cs with
    | ']' :: rest => some (.list acc.reverse, rest)
    | cs => do
      let (v, rest) ← readValue? fuel cs
      match skipLines (rest.length + 1) rest with
      | ',' :: rest => readItems? fuel (v :: acc) rest
      | ']' :: rest => some (.list (v :: acc).reverse, rest)
      | _ => none

def readEntries? : Nat → List (String × (Bool × Value)) → List Char → Option (Value × List Char)
  | 0, _, _ => none
  | fuel + 1, acc, cs => do
    let (path, rest) ← readKey? (cs.length + 1) cs
    match rest with
    | '=' :: rest =>
      let (v, rest) ← readValue? fuel (skipGap rest)
      let acc ← putAt v path acc
      match skipGap rest with
      | ',' :: rest => readEntries? fuel acc (skipGap rest)
      | '\x7d' :: rest => some (.table (acc.map fun e => (e.1, e.2.2)), rest)
      | _ => none
    | _ => none

end

end Figures.Toml
