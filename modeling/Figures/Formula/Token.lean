import Figures.Formula.Basic
import Figures.Number.Reading

/-!
# The tokens of formulas

* `Token`          punctuation, names, texts and numbers
* `munch c cs`     the longest token at the start of `c :: cs`: the token and the characters behind
                   `c` that belong to it
* `Lexeme`         a token with its place
* `lex`            the tokens of a text, blanks between them skipped; the first character that
                   starts no token is an error

Texts stand in single or double quotes; a backslash takes the next character with it, which must not
be a line end. Numbers are decimals without a power of ten.
-/

namespace Figures

inductive Token where
  | opening
  | closing
  | comma
  | dot
  | name (s : String)
  | text (s : String)
  | number (x : Float)
  deriving Inhabited, DecidableEq

namespace Token

def shown : Token → String
  | opening => "'('"
  | closing => "')'"
  | comma => "','"
  | dot => "'.'"
  | name s => s!"identifier '{s}'"
  | text s => s!"string \"{s}\""
  | number x => s!"number {plain x}"

end Token

structure Lexeme where
  token : Token
  span : Span
  deriving Inhabited

namespace Lexeme

/-- characters that may stand between tokens -/
def isGap (c : Char) : Bool := c == ' ' || c == '\t' || c == '\n' || c == '\r'

def startsName (c : Char) : Bool := c.isAlpha || c == '_'

def continuesName (c : Char) : Bool := c.isAlphanum || c == '_'

def isQuote (c : Char) : Bool := c == '\x22' || c == '\x27'

/-- what stands at the start of a text: a token or none, and the characters behind the first one
that belong to it -/
structure Munch where
  token? : Option Token
  extra : List Char

/-- the characters behind an opening quote up to the closing one, and whether there is one. Without
one they end before a backslash that takes nothing with it, or at the end -/
def quotedSpan (q : Char) : List Char → List Char × Bool
  | [] => ([], false)
  | c :: cs =>
    if c = q then ([c], true)
    else if c = '\\' then
      match cs with
      | [] => ([], false)
      | d :: ds =>
        if d = '\n' then ([], false)
        else (c :: d :: (quotedSpan q ds).1, (quotedSpan q ds).2)
    else (c :: (quotedSpan q cs).1, (quotedSpan q cs).2)

/-- the text between quotes: a backslash before a quote or a backslash is dropped, any other
stays -/
def unescape : List Char → List Char
  | '\\' :: c :: cs =>
    if c = '\\' ∨ isQuote c then c :: unescape cs else '\\' :: c :: unescape cs
  | c :: cs => c :: unescape cs
  | [] => []

/-- a point with digits behind it, if the characters start so -/
def places : List Char → List Char
  | '.' :: cs =>
    if (cs.takeWhile Char.isDigit).isEmpty then [] else '.' :: cs.takeWhile Char.isDigit
  | _ => []

/-- the number with digits before and behind the point -/
def numberOf (negative : Bool) (whole fraction : List Char) : Float :=
  let ds := whole ++ fraction
  let x := nearestDecimal (digitsValue 0 ds) ds.length (-(fraction.length : Int))
  if negative then -x else x

/-- the longest token at the start of `c :: cs` -/
def munch (c : Char) (cs : List Char) : Munch :=
  if c = '(' then ⟨some .opening, []⟩
  else if c = ')' then ⟨some .closing, []⟩
  else if c = ',' then ⟨some .comma, []⟩
  else if c = '.' then ⟨some .dot, []⟩
  else if startsName c then
    let more := cs.takeWhile continuesName
    ⟨some (.name (String.ofList (c :: more))), more⟩
  else if isQuote c then
    let (body, closed) := quotedSpan c cs
    ⟨if closed then some (.text (String.ofList (unescape body.dropLast))) else none, body⟩
  else if c = '-' ∨ c.isDigit then
    let more := cs.takeWhile Char.isDigit
    let fraction := places (cs.drop more.length)
    if c = '-' then
      if more.isEmpty then ⟨none, []⟩
      else ⟨some (.number (numberOf true more (fraction.drop 1))), more ++ fraction⟩
    else ⟨some (.number (numberOf false (c :: more) (fraction.drop 1))), more ++ fraction⟩
  else ⟨none, []⟩

def byteSize (cs : List Char) : Nat := cs.foldl (fun n c => n + c.utf8Size) 0

/-- what is reported for characters that are no token -/
def strayMessage (cs : List Char) : String := "Unexpected character '" ++ String.ofList cs ++ "'"

def lexFrom (start : Nat) : List Char → Except FormulaError (List Lexeme)
  | [] => .ok []
  | c :: cs =>
    if isGap c then lexFrom (start + 1) cs
    else
      let m := munch c cs
      let span : Span := ⟨start, start + byteSize (c :: m.extra)⟩
      match m.token? with
      | none =>
        .error (.malformed span (strayMessage (c :: m.extra)) [])
      | some t =>
        (lexFrom span.stop (cs.drop m.extra.length)).map fun rest => ⟨t, span⟩ :: rest
termination_by cs => cs.length
decreasing_by all_goals simp [List.length_drop]; try omega

def lex (s : String) : Except FormulaError (List Lexeme) := lexFrom 0 s.toList

end Lexeme

end Figures
