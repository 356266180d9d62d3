import Figures.Formula.Token
import Figures.Number.Whole

/-!
# Reading formulas

    formula := name '(' [formula (',' formula)*] ')' | path | number | text
    path    := name ('.' (name | place))*

* `Failure`, `Failure.merge`        where a parser has failed, and the furthest of several failures
* `Parser α`                        the failures on the way, and a result with the tokens behind it
* `either`, `choice`                alternatives in their order, each from the same place on
* `repeated`, `separatedBy`         as often as possible, `delimitedBy` between two marks
* `Parser.formula`                  the grammar
* `Formula.parse`, `Formula.read`   the formula of some tokens, and of a text

A call and a path begin alike, so what fails as a call is read once more, as a path. The failures of
alternatives that are given up are kept: an error is reported where tokens have been read furthest,
and lists what was expected there by any of them. A place of a list is a number without a fractional
part that is not negative.
-/

namespace Figures

structure Failure where
  /-- the tokens from there on -/
  rest : List Lexeme
  /-- what could have stood there -/
  expected : List String

namespace Failure

/-- of two failures the one that is further on; at one place, what was expected by both -/
def merge (a b : Failure) : Failure :=
  if a.rest.length < b.rest.length then a
  else if b.rest.length < a.rest.length then b
  else ⟨a.rest, a.expected ++ b.expected.filter fun e => !a.expected.contains e⟩

/-- the error at a failure, in a text that ends at byte `size` -/
def error (size : Nat) (f : Failure) : FormulaError :=
  match f.rest with
  | [] => .malformed ⟨size, size⟩ "Unexpected end of input" f.expected
  | x :: _ => .malformed x.span ("Unexpected " ++ x.token.shown) f.expected

end Failure

/-- the failures on the way, in their order, and what has been read with the tokens behind it -/
def Parser (α : Type) : Type := List Lexeme → List Failure × Option (α × List Lexeme)

namespace Parser

variable {α : Type}

instance : Monad Parser where
  pure a := fun rest => ([], some (a, rest))
  bind p f := fun rest =>
    match p rest with
    | (failures, none) => (failures, none)
    | (failures, some (a, behind)) =>
      let (further, result) := f a behind
      (failures ++ further, result)

/-- a token that `pick` accepts; which ones these are is not listed -/
def select (pick : Token → Option α) : Parser α
  | [] => ([⟨[], []⟩], none)
  | x :: rest =>
    match pick x.token with
    | some a => ([], some (a, rest))
    | none => ([⟨x :: rest, []⟩], none)

def just (t : Token) : Parser Unit
  | [] => ([⟨[], [t.shown]⟩], none)
  | x :: rest => if x.token = t then ([], some ((), rest)) else ([⟨x :: rest, [t.shown]⟩], none)

def ending : Parser Unit
  | [] => ([], some ((), []))
  | x :: rest => ([⟨x :: rest, ["end of input"]⟩], none)

/-- `p`, or `q` from the same place on if `p` fails -/
def either (p q : Parser α) : Parser α := fun rest =>
  match p rest with
  | (failures, none) =>
    let (further, result) := q rest
    (failures ++ further, result)
  | done => done

def choice : List (Parser α) → Parser α
  | [] => fun _ => ([], none)
  | p :: ps => either p (choice ps)

/-- `p` as often as it does not fail, up to `n` times -/
def repeated (p : Parser α) : Nat → Parser (List α)
  | 0 => pure []
  | n + 1 => either (do return (← p) :: (← repeated p n)) (pure [])

/-- `p` with separators between, up to `n` of them; none of them stands at the end -/
def separatedBy (p : Parser α) (separator : Parser Unit) (n : Nat) : Parser (List α) :=
  either (do return (← p) :: (← repeated (do separator; p) n)) (pure [])

def delimitedBy (p : Parser α) (first last : Parser Unit) : Parser α := do
  first
  let a ← p
  last
  return a

/-! ### the grammar -/

def name? : Token → Option String
  | .name s => some s
  | _ => none

def number? : Token → Option Formula
  | .number x => some (.number x)
  | _ => none

def text? : Token → Option Formula
  | .text s => some (.text s)
  | _ => none

/-- a number as a place of a list; only whole numbers that are not negative are places -/
def place? (x : Float) : Option String :=
  if 0.0 ≤ x && isWhole x then some (Nat.repr (toCount word64 x)) else none

def index? : Token → Option String
  | .number x => place? x
  | _ => none

/-- a later segment of a path, with the dot in front of it -/
def segment : Parser String := do
  just .dot
  either (select name?) (select index?)

def call (formula : Parser Formula) (n : Nat) : Parser Formula := do
  let name ← select name?
  let args ← delimitedBy (separatedBy formula (just .comma) n) (just .opening) (just .closing)
  return .call name args

def path (n : Nat) : Parser Formula := do
  let head ← select name?
  let segments ← repeated segment n
  return .path (head :: segments)

def formula : Nat → Parser Formula
  | 0 => choice []
  | n + 1 => choice [call (formula n) n, path n, select number?, select text?]

/-- a formula where no more than `n` tokens are left, and nothing behind it -/
def whole (n : Nat) : Parser Formula := do
  let f ← formula n
  ending
  return f

end Parser

namespace Formula

/-- the formula of all tokens of a text that ends at byte `size` -/
def parse (size : Nat) (lexemes : List Lexeme) : Except FormulaError Formula :=
  match Parser.whole (lexemes.length + 1) lexemes with
  | (_, some (f, _)) => .ok f
  | (failures, none) => .error ((failures.foldl Failure.merge ⟨lexemes, []⟩).error size)

def read (s : String) : Except FormulaError Formula := do
  let lexemes ← Lexeme.lex s
  parse s.utf8ByteSize lexemes

end Formula

end Figures
