import Figures.Formula.Basic
import Figures.Text.Blank

/-!
# Reports on malformed formulas

* `Report.lines`            the lines of a source, each with its end
* `Report.locate`           the line of a character and the characters in front of it there
* `FormulaError.report`     a coloured picture of a malformed formula with the error below it; any
                            other error is only its message

Reports count characters. A mark that does not lie in the source is left out, and its picture with
it. The picture shows the line on which the mark begins. A tab reaches to the next column that is a
multiple of four.
-/

namespace Figures

namespace Report

def endsLine (c : Char) : Bool :=
  ['\r', '\n', '\x0B', '\x0C', '\u0085', '\u2028', '\u2029'].contains c

/-- a character in front of the first line -/
def grow (c : Char) : List (List Char) → List (List Char)
  | [] => [[c]]
  | l :: ls => (c :: l) :: ls

/-- the lines of some characters, each with its end; a carriage return and a line feed are one end,
and nothing behind the last end is no line -/
def linesOf : List Char → List (List Char)
  | [] => []
  | '\r' :: '\n' :: cs => ['\r', '\n'] :: linesOf cs
  | c :: cs => if endsLine c then [c] :: linesOf cs else grow c (linesOf cs)

/-- the lines of a source; an empty source is one empty line -/
def lines (source : List Char) : List (List Char) :=
  if source.isEmpty then [[]] else linesOf source

structure Place where
  /-- the number of the line, from one -/
  row : Nat
  line : List Char
  /-- the characters of the line in front of the place -/
  offset : Nat
  deriving Repr, DecidableEq

/-- a place as reports show it: line and column, both from one -/
def Place.shown (p : Place) : String := s!"{p.row}:{p.offset + 1}"

/-- the place of the character at `offset`, where the first line has the number `row`. The end of
the source stands on the last line -/
def locate (row : Nat) : List (List Char) → Nat → Option Place
  | [], _ => none
  | l :: ls, offset =>
    if offset < l.length ∨ ls.isEmpty ∧ offset = l.length then some ⟨row, l, offset⟩
    else if ls.isEmpty then none
    else locate (row + 1) ls (offset - l.length)

/-- the places of the first and the last character of a mark, if both are in the source. An empty
mark has its place for both -/
def ends? (source : List Char) (mark : Span) : Option (Place × Place) := do
  let first ← locate 1 (lines source) mark.start
  let last ← locate 1 (lines source) (max mark.start (mark.stop - 1))
  return (first, last)

def paint (colour s : String) : String := "\x1b[" ++ colour ++ "m" ++ s ++ "\x1b[0m"

def red : String := "31"
def frame : String := "38;5;246"
def gutter : String := "38;5;240"
def plainText : String := "38;5;249"

/-- the cells that the character in column `col` takes -/
def width (line : List Char) (col : Nat) : Nat :=
  match (line.drop col).head? with
  | some '\t' => 4 - col % 4
  | _ => 1

/-- a mark in the cells of a column: `head` in the first one, `tail` in the others -/
def cells (line : List Char) (col : Nat) (head tail : String) : String :=
  head ++ String.join (List.replicate (width line col - 1) tail)

/-- the line itself, the characters from `start` on for `size` in red -/
def lineText (line : List Char) (start size : Nat) : String :=
  String.join <| line.zipIdx.map fun (c, col) =>
    let colour := if start ≤ col ∧ col < start + size then red else plainText
    let shown := paint colour (if isBlank c then " " else String.ofList [c])
    cells line col shown shown

/-- the underline of the marked characters with the place where the pointer starts -/
def underline (line : List Char) (start size : Nat) : String :=
  String.join <| (List.range (start + size + 2)).map fun col =>
    let bar := paint red "─"
    if size = 0 ∧ col = start then cells line col (paint red "│") (paint red " ")
    else if start ≤ col ∧ col < start + size then
      cells line col (if col = start + size / 2 then paint red "┬" else bar) bar
    else cells line col " " " "

def pointer (line : List Char) (start size : Nat) : String :=
  String.join <| (List.range (start + size + 2)).map fun col =>
    let bar := paint red "─"
    if col < start + size / 2 then cells line col " " " "
    else cells line col (if col = start + size / 2 then paint red "╰" else bar) bar

def blanks (n : Nat) : String := String.ofList (List.replicate n ' ')

def heading (reason : String) : String := paint red "Error:" ++ " " ++ reason ++ "\n"

/-- the head of the picture: the place of the error. Line numbers take `digits` cells -/
def header (digits : Nat) (file : String) (place : Place) : String :=
  blanks (digits + 2) ++ paint frame "╭" ++ paint frame "─" ++ paint frame "[" ++ file ++ ":" ++
    place.shown ++ paint frame "]" ++ "\n"

/-- the picture of one line with a mark of `size` characters and a message below it -/
def picture (digits : Nat) (place : Place) (size : Nat) (message : String) : String :=
  let line := Text.trimEnd place.line
  let number := blanks (digits - (Nat.repr place.row).length) ++ Nat.repr place.row
  let side := " " ++ paint gutter (blanks (digits + 1) ++ "│") ++ " "
  blanks (digits + 2) ++ paint frame "│" ++ "\n" ++
    " " ++ paint frame (number ++ " │") ++ " " ++ lineText line place.offset size ++ "\n" ++
    side ++ underline line place.offset size ++ "\n" ++
    side ++ pointer line place.offset size ++ " " ++ message ++ "\n"

def tail (digits : Nat) : String :=
  paint frame (String.join (List.replicate (digits + 2) "─") ++ "╯") ++ "\n"

def expectation (expected : List String) : String :=
  if expected.isEmpty then "" else "\nExpected: " ++ Text.join ", " expected

end Report

namespace FormulaError

/-- a picture of the place in `source` that a malformed formula's error points at. The bytes of the
error's span are taken for characters -/
def report (e : FormulaError) (source file : String) : String :=
  match e with
  | malformed span reason expected =>
    Report.heading reason ++
      match Report.ends? source.toList span with
      | none => ""
      | some (first, last) =>
        let digits := (Nat.repr last.row).length
        Report.header digits file first ++
          (Report.picture digits first (span.stop - span.start) (reason ++
            Report.expectation expected) ++ Report.tail digits)
  | e => e.message

end FormulaError

end Figures
