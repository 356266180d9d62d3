import Figures.Json.Basic
import Figures.Number.Reading
import Figures.Number.Whole

/-!
# JSON documents as they are written

* `Fault`               why reading stopped: the text is malformed, or it ended early
* `Document`            what a text holds up to the point where reading stopped: members in the
                        order in which they stand, repeated keys included
* `Document.ofText`     the document of a text, and whether something stands behind it
* `Document.toJson`     the value: keys ascending, of a repeated key the last member
* `Document.fault?`     the first place where reading stopped

A document is a tree also when the text breaks off, so that a reader of the tree meets faults and
wrong shapes in the order in which they stand in the text. The reader is a machine with the open
lists and objects on a stack; every step consumes a character.
-/

namespace Figures

/-- why reading a text stopped -/
inductive Fault where
  | malformed
  | ended
  deriving Repr, DecidableEq

/-- a document, possibly broken off. `unfit` is a number or a text that is well formed but denotes
no value: a number out of range, half of a surrogate pair -/
inductive Document where
  | null
  | boolean (b : Bool)
  | integer (n : Int)
  | real (x : Float)
  | text (s : String)
  | unfit
  | list (items : List Document) (stop : Option Fault)
  | object (members : List (String × Document)) (stop : Option Fault)
  | broken (fault : Fault)
  deriving Inhabited

namespace Document

/-! ### numbers -/

/-- digits read into a significand of 64 bits; what would overflow it is left over -/
def significand (n : Nat) : List Char → Nat × List Char
  | [] => (n, [])
  | c :: cs =>
    let next := 10 * n + (c.toNat - '0'.toNat)
    if next ≤ word64 then significand next cs else (n, c :: cs)

/-- the double of `x * 10 ^ e`, scaled by powers of ten up to `1e308`; none if it is out of range -/
def scale (x : Float) (e : Int) : Nat → Option Float
  | 0 => some 0.0
  | fuel + 1 =>
    if 0 ≤ e ∧ e ≤ 308 then
      let y := x * nearestDecimal 1 1 e
      if y.isInf then none else some y
    else if -308 ≤ e ∧ e < 0 then some (x / nearestDecimal 1 1 (-e))
    else if x == 0.0 then some x
    else if 0 ≤ e then none
    else scale (x / nearestDecimal 1 1 308) (e + 308) fuel

/-- the double of a significand and a power of ten -/
def ofParts (negative : Bool) (n : Nat) (e : Int) : Document :=
  match scale (Binary.nearest n 0) e 4 with
  | none => .unfit
  | some x => .real (if negative then -x else x)

/-- the largest power of ten whose digits are read -/
def powerLimit : Nat := 0x7FFFFFFF

def withPower (negative : Bool) (n : Nat) (e : Int) (cs : List Char) :
    Except Fault (Document × List Char) :=
  match cs with
  | c :: rest =>
    if c = 'e' ∨ c = 'E' then
      let (down, rest) := splitSign rest
      let ds := rest.takeWhile Char.isDigit
      let rest' := rest.dropWhile Char.isDigit
      if ds.isEmpty then .error (if rest.isEmpty then .ended else .malformed)
      else
        let p := digitsValue 0 ds
        if powerLimit < p then
          if n ≠ 0 ∧ !down then .ok (.unfit, rest')
          else .ok (.real (if negative then -0.0 else 0.0), rest')
        else
          let p : Int := p
          .ok (ofParts negative n (if down then e - p else e + p), rest')
    else .ok (ofParts negative n e, cs)
  | [] => .ok (ofParts negative n e, [])

/-- a whole number of 64 bits stays whole; `-0` is a double -/
def ofWhole (negative : Bool) (n : Nat) : Document :=
  if !negative then .integer n
  else if n = 0 ∨ signBit < n then .real (-(Binary.nearest n 0))
  else .integer (-(n : Int))

def withPlaces (negative : Bool) (ds rest : List Char) : Except Fault (Document × List Char) :=
  let (n, left) := significand 0 ds
  match rest with
  | '.' :: r =>
    let places := r.takeWhile Char.isDigit
    let r' := r.dropWhile Char.isDigit
    if places.isEmpty then .error (if r'.isEmpty then .ended else .malformed)
    else
      let (m, unread) := significand n places
      let e : Int := (left.length : Int) - ((places.length - unread.length : Nat) : Int)
      withPower negative m e r'
  | c :: _ =>
    if c = 'e' ∨ c = 'E' ∨ !left.isEmpty then withPower negative n left.length rest
    else .ok (ofWhole negative n, rest)
  | [] =>
    if left.isEmpty then .ok (ofWhole negative n, [])
    else withPower negative n left.length []

/-- a number: no leading zeros, digits on both sides of a point -/
def readNumber (cs : List Char) : Except Fault (Document × List Char) :=
  let (negative, body) := match cs with
    | '-' :: r => (true, r)
    | r => (false, r)
  let ds := body.takeWhile Char.isDigit
  let rest := body.dropWhile Char.isDigit
  match ds with
  | [] => .error (if body.isEmpty then .ended else .malformed)
  | '0' :: _ :: _ => .error .malformed
  | ds => withPlaces negative ds rest

/-! ### texts -/

def hexValue? (ds : List Char) : Option Nat :=
  ds.foldl (fun acc c => do
    let n ← acc
    if c.isDigit then some (16 * n + (c.toNat - 48))
    else if 'a' ≤ c ∧ c ≤ 'f' then some (16 * n + (c.toNat - 87))
    else if 'A' ≤ c ∧ c ≤ 'F' then some (16 * n + (c.toNat - 55))
    else none) (some 0)

def escape? (c : Char) : Option Char :=
  if c = '\x22' ∨ c = '\\' ∨ c = '/' then some c
  else if c = 'b' then some (Char.ofNat 8)
  else if c = 'f' then some (Char.ofNat 12)
  else if c = 'n' then some '\n'
  else if c = 'r' then some '\r'
  else if c = 't' then some '\t'
  else none

/-- the text up to the closing quote; `acc` is what was read, reversed, and `none` once an escape
denoted no character. A high surrogate counts only with the low one that follows it -/
def readText (acc : Option (List Char)) : List Char → Except Fault (Option String × List Char)
  | [] => .error (if acc.isNone then .malformed else .ended)
  | '\x22' :: rest => .ok (acc.map fun cs => String.ofList cs.reverse, rest)
  | '\\' :: 'u' :: a :: b :: c :: d :: '\\' :: 'u' :: e :: f :: g :: h :: rest =>
    match hexValue? [a, b, c, d] with
    | none => .error .malformed
    | some hi =>
      if 0xD800 ≤ hi ∧ hi < 0xDC00 then
        match hexValue? [e, f, g, h] with
        | none => .error .malformed
        | some lo =>
          if 0xDC00 ≤ lo ∧ lo < 0xE000 then
            let n := 0x10000 + (hi - 0xD800) * 0x400 + (lo - 0xDC00)
            readText (acc.map (Char.ofNat n :: ·)) rest
          else readText none rest
      else if 0xDC00 ≤ hi ∧ hi < 0xE000 then
        readText none ('\\' :: 'u' :: e :: f :: g :: h :: rest)
      else readText (acc.map (Char.ofNat hi :: ·)) ('\\' :: 'u' :: e :: f :: g :: h :: rest)
  | '\\' :: 'u' :: a :: b :: c :: d :: rest =>
    match hexValue? [a, b, c, d] with
    | none => .error .malformed
    | some n =>
      if 0xD800 ≤ n ∧ n < 0xE000 then readText none rest
      else readText (acc.map (Char.ofNat n :: ·)) rest
  | '\\' :: 'u' :: _ => .error .ended
  | ['\\'] => .error .ended
  | '\\' :: c :: rest =>
    match escape? c with
    | none => .error .malformed
    | some x => readText (acc.map (x :: ·)) rest
  | c :: rest => if c.toNat < 32 then .error .malformed else readText (acc.map (c :: ·)) rest

/-! ### the machine -/

/-- an open list or object with what it holds so far, the last first; `member` waits for the value
of its key -/
inductive Frame where
  | list (items : List Document)
  | object (members : List (String × Document))
  | member (members : List (String × Document)) (key : String)

/-- what may stand next -/
inductive Expects where
  | value
  | itemOrEnd
  | keyOrEnd
  | key
  | separator

def isSpace (c : Char) : Bool := c = ' ' || c = '\t' || c = '\n' || c = '\r'

/-- the document of a frame in which reading stopped -/
def Frame.stopped (f : Fault) : Frame → Document
  | .list items => .list items.reverse (some f)
  | .object members => .object members.reverse (some f)
  | .member members key => .object ((key, .broken f) :: members).reverse (some f)

/-- the document of a frame around one that was broken off -/
def Frame.around (f : Fault) (inner : Document) : Frame → Document
  | .list items => .list (inner :: items).reverse (some f)
  | .object members => .object members.reverse (some f)
  | .member members key => .object ((key, inner) :: members).reverse (some f)

/-- the document that was read when reading stops inside the open frames -/
def abandon (f : Fault) : List Frame → Document
  | [] => .broken f
  | frame :: outer => outer.foldl (fun inner o => o.around f inner) (frame.stopped f)

/-- how deep lists and objects may nest -/
def depthLimit : Nat := 127

def readWord (word : List Char) (doc : Document) (cs : List Char) :
    Except Fault (Document × List Char) :=
  if word.isPrefixOf cs then .ok (doc, cs.drop word.length)
  else .error (if cs.isPrefixOf word then .ended else .malformed)

/-- a value without parts -/
def readScalar (c : Char) (rest : List Char) : Except Fault (Document × List Char) :=
  if c = '\x22' then (readText (some []) rest).map fun (s, r) =>
    (match s with
      | some s => .text s
      | none => .unfit, r)
  else if c = 'n' then readWord "null".toList .null (c :: rest)
  else if c = 't' then readWord "true".toList (.boolean true) (c :: rest)
  else if c = 'f' then readWord "false".toList (.boolean false) (c :: rest)
  else if c = '-' ∨ c.isDigit then readNumber (c :: rest)
  else .error .malformed

/-- a finished value handed to the innermost frame; without a frame it is the document -/
def deliver (doc : Document) : List Frame → Option (List Frame)
  | [] => none
  | .list items :: outer => some (.list (doc :: items) :: outer)
  | .member members key :: outer => some (.object ((key, doc) :: members) :: outer)
  | .object members :: outer => some (.object members :: outer)

/-- the machine. It returns the document and, if that is complete, the rest of the text -/
def machine : Nat → List Frame → Expects → List Char → Document × Option (List Char)
  | 0, frames, _, _ => (abandon .malformed frames, none)
  | fuel + 1, frames, expects, cs =>
    let stop (f : Fault) := (abandon f frames, none)
    let finish (doc : Document) (outer : List Frame) (rest : List Char) :=
      match deliver doc outer with
      | none => (doc, some rest)
      | some frames => machine fuel frames .separator rest
    let opens (frame : Frame) (expects : Expects) (rest : List Char) :=
      if frames.length < depthLimit then machine fuel (frame :: frames) expects rest
      else stop .malformed
    let value (c : Char) (rest : List Char) :=
      if c = '[' then opens (.list []) .itemOrEnd rest
      else if c = '\x7b' then opens (.object []) .keyOrEnd rest
      else match readScalar c rest with
        | .ok (doc, rest) => finish doc frames rest
        | .error f => stop f
    match cs.dropWhile isSpace, expects, frames with
    | [], _, _ => stop .ended
    | c :: rest, .value, _ => value c rest
    | c :: rest, .itemOrEnd, .list items :: outer =>
      if c = ']' then finish (.list items.reverse none) outer rest else value c rest
    | c :: rest, .separator, .list items :: outer =>
      if c = ']' then finish (.list items.reverse none) outer rest
      else if c = ',' then machine fuel frames .value rest
      else stop .malformed
    | c :: rest, .separator, .object members :: outer =>
      if c = '\x7d' then finish (.object members.reverse none) outer rest
      else if c = ',' then machine fuel frames .key rest
      else stop .malformed
    | c :: rest, expects, .object members :: outer =>
      if c = '\x7d' then
        match expects with
        | .keyOrEnd => finish (.object members.reverse none) outer rest
        | _ => stop .malformed
      else if c = '\x22' then
        match readText (some []) rest with
        | .error f => stop f
        | .ok (none, _) => stop .malformed
        | .ok (some key, rest) =>
          match rest.dropWhile isSpace with
          | [] => (abandon .ended (.member members key :: outer), none)
          | ':' :: rest => machine fuel (.member members key :: outer) .value rest
          | _ => (abandon .malformed (.member members key :: outer), none)
      else stop .malformed
    | _, _, _ => stop .malformed

def ofText (s : String) : Document × Option Fault :=
  let cs := s.toList
  match machine (2 * cs.length + 2) [] .value cs with
  | (doc, none) => (doc, none)
  | (doc, some rest) => (doc, if rest.all isSpace then none else some .malformed)

/-! ### documents and values -/

mutual

/-- the first place where reading stopped -/
def fault? : Document → Option Fault
  | .broken f => some f
  | .list items stop => faultOfItems? items <|> stop
  | .object members stop => faultOfMembers? members <|> stop
  | _ => none

def faultOfItems? : List Document → Option Fault
  | [] => none
  | d :: rest => fault? d <|> faultOfItems? rest

def faultOfMembers? : List (String × Document) → Option Fault
  | [] => none
  | (_, d) :: rest => fault? d <|> faultOfMembers? rest

end

mutual

/-- the value of a document: keys ascending, of a repeated key the last member -/
def toJson : Document → Except Fault Json
  | .null => .ok .null
  | .boolean b => .ok (.boolean b)
  | .integer n => .ok (.integer n)
  | .real x => .ok (.real x)
  | .text s => .ok (.text s)
  | .unfit => .error .malformed
  | .broken f => .error f
  | .list items stop => do
    let vs ← itemsToJson items
    match stop with
    | some f => .error f
    | none => .ok (.list vs)
  | .object members stop => do
    let vs ← membersToJson members
    match stop with
    | some f => .error f
    | none => .ok (.object (Dict.ofList vs).entries)

def itemsToJson : List Document → Except Fault (List Json)
  | [] => .ok []
  | d :: rest => do
    let v ← toJson d
    let vs ← itemsToJson rest
    .ok (v :: vs)

def membersToJson : List (String × Document) → Except Fault (List (String × Json))
  | [] => .ok []
  | (k, d) :: rest => do
    let v ← toJson d
    let vs ← membersToJson rest
    .ok ((k, v) :: vs)

end

mutual

def ofJson : Json → Document
  | .null => .null
  | .boolean b => .boolean b
  | .integer n => .integer n
  | .real x => .real x
  | .text s => .text s
  | .list items => .list (ofItems items) none
  | .object members => .object (ofMembers members) none

def ofItems : List Json → List Document
  | [] => []
  | v :: rest => ofJson v :: ofItems rest

def ofMembers : List (String × Json) → List (String × Document)
  | [] => []
  | (k, v) :: rest => (k, ofJson v) :: ofMembers rest

end

end Document

def Json.read? (s : String) : Option Json :=
  match Document.ofText s with
  | (doc, none) => doc.toJson.toOption
  | (_, some _) => none

end Figures
