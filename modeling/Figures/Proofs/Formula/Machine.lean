import Figures.Formula.Parser

/-!
# A machine that reads formulas

* `Awaiting`, `Reader`    what has been read: the state of a machine with a stack of open calls
* `Reader.step`           one token on
* `Reader.value?`         the formula, if nothing is open
* `Reader.expected`       the punctuation that could come next
* `Reader.run`            the formula of the rest of a text

The machine takes every token once, and refuses the first one that no formula continues with. A
parser with alternatives comes to the same formulas and errors (`Formula.read_eq_run`).
-/

namespace Figures

/-- what the innermost open formula waits for -/
inductive Awaiting where
  /-- a formula -/
  | formula
  /-- the first argument of a call, or its end -/
  | argument
  /-- behind the first name of a formula -/
  | afterHead (name : String)
  /-- a segment of a path; `segments` are those before it, the last one first -/
  | segment (segments : List String)
  /-- behind a later segment of a path -/
  | afterSegment (segments : List String)
  /-- behind a formula that cannot go on -/
  | afterValue (value : Formula)

/-- an open call with the arguments read so far, the last one first -/
structure Pending where
  name : String
  args : List Formula

/-- the state of reading: the innermost formula, and the calls around it from the inside out -/
structure Reader where
  awaiting : Awaiting
  pending : List Pending

namespace Reader

def start : Reader := ⟨.formula, []⟩

def begin? : Token → Option Awaiting
  | .name s => some (.afterHead s)
  | .number x => some (.afterValue (.number x))
  | .text s => some (.afterValue (.text s))
  | _ => none

/-- the token behind the formula `value`: the next argument, or the end of a call -/
def follow (value : Formula) : List Pending → Token → Option Reader
  | p :: rest, .comma => some ⟨.formula, ⟨p.name, value :: p.args⟩ :: rest⟩
  | p :: rest, .closing => some ⟨.afterValue (.call p.name (value :: p.args).reverse), rest⟩
  | _, _ => none

def step (r : Reader) (t : Token) : Option Reader :=
  match r.awaiting, t with
  | .formula, t => (begin? t).map (⟨·, r.pending⟩)
  | .argument, .closing =>
    match r.pending with
    | p :: rest => some ⟨.afterValue (.call p.name []), rest⟩
    | [] => none
  | .argument, t => (begin? t).map (⟨·, r.pending⟩)
  | .afterHead name, .opening => some ⟨.argument, ⟨name, []⟩ :: r.pending⟩
  | .afterHead name, .dot => some ⟨.segment [name], r.pending⟩
  | .afterHead name, t => follow (.path [name]) r.pending t
  | .segment segments, .name s => some ⟨.afterSegment (s :: segments), r.pending⟩
  | .segment segments, .number x =>
    (Parser.place? x).map fun s => ⟨.afterSegment (s :: segments), r.pending⟩
  | .segment _, _ => none
  | .afterSegment segments, .dot => some ⟨.segment segments, r.pending⟩
  | .afterSegment segments, t => follow (.path segments.reverse) r.pending t
  | .afterValue value, t => follow value r.pending t

/-- the formula, if the text may end here -/
def value? (r : Reader) : Option Formula :=
  match r.pending, r.awaiting with
  | [], .afterHead name => some (.path [name])
  | [], .afterSegment segments => some (.path segments.reverse)
  | [], .afterValue value => some value
  | _, _ => none

/-- the punctuation behind a formula -/
def followers (pending : List Pending) : List String :=
  if pending.isEmpty then ["end of input"] else [Token.comma.shown, Token.closing.shown]

/-- the punctuation that could come next -/
def expected (r : Reader) : List String :=
  match r.awaiting with
  | .formula | .segment _ => []
  | .argument => [Token.closing.shown]
  | .afterHead _ => Token.opening.shown :: Token.dot.shown :: followers r.pending
  | .afterSegment _ => Token.dot.shown :: followers r.pending
  | .afterValue _ => followers r.pending

/-- the formula of the rest of a text that ends at byte `size` -/
def run (size : Nat) (r : Reader) : List Lexeme → Except FormulaError Formula
  | [] =>
    match r.value? with
    | some f => .ok f
    | none => .error (.malformed ⟨size, size⟩ "Unexpected end of input" r.expected)
  | x :: rest =>
    match r.step x.token with
    | some next => run size next rest
    | none => .error (.malformed x.span ("Unexpected " ++ x.token.shown) r.expected)

end Reader

end Figures
