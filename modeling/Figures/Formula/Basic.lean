import Figures.Number.Shortest

/-!
# Formulas

* `Formula`        a number, a text, a path into the scope, or a call of a helper
* `Span`           a range of bytes in the text of a formula
* `FormulaError`   why a text is no formula, or why a formula has no value

Formulas stand inside double braces in blueprints.
-/

namespace Figures

/-- an expression over a scope of values -/
inductive Formula where
  | number (x : Float)
  | text (s : String)
  /-- a chain of names and list places -/
  | path (segments : List String)
  | call (name : String) (args : List Formula)
  deriving Inhabited

/-- the bytes from `start` up to before `stop` -/
structure Span where
  start : Nat
  stop : Nat
  deriving Repr, DecidableEq, Inhabited

/-- why a text is no formula, or why a formula has no value -/
inductive FormulaError where
  /-- the text is no formula; `expected` lists the punctuation that could stand at the place -/
  | malformed (span : Span) (reason : String) (expected : List String)
  | unknownHelper (name : String)
  | arity (helper : String) (expected found : Nat)
  | mistyped (context reason : String)
  | divisionByZero
  | unresolved (path : String)
  deriving Repr, DecidableEq, Inhabited

namespace FormulaError

def message : FormulaError → String
  | malformed span reason _ => s!"Syntax error at {span.start}..{span.stop}: {reason}"
  | unknownHelper name => s!"Unknown helper \"{name}\""
  | arity helper expected found => s!"{helper} expects {expected} arguments, got {found}"
  | mistyped context reason => s!"{context}: {reason}"
  | divisionByZero => "Division by zero"
  | unresolved path => s!"Path \"{path}\" not found"

end FormulaError

end Figures
