import Figures.Markup.Basic
import Figures.Text.Blank

/-!
# Markup documents

* `references`, `escape s`         a text with the five special characters replaced by entities
* `Piece.text`                     the markup of a piece
* `levels depth d`                 the pieces of a drawing with their levels: a group's content is
                                   one level deeper than its tags
* `Layout`                         a declaration in front or not, one line an element or not, places
* `openingLines`, `documentLines`  the lines in front of a drawing, and all lines of a document,
                                   with their levels
* `document`                       the text of a document

Both layouts write the same lines: the compact one puts them end to end, the pretty one puts each on
a line of its own behind two blanks a level.
-/

namespace Figures.Markup

/-- the special characters with what is written for them. The ampersand is the first: every entity
holds one, which must not be replaced again -/
def references : List (Char × String) :=
  [('&', "&amp;"), ('<', "&lt;"), ('>', "&gt;"), ('\x22', "&quot;"), ('\x27', "&apos;")]

/-- a text as it stands in markup, in attributes and between tags: the special characters are
replaced one after the other, each in what the one before has left -/
def escape (s : String) : String := references.foldl (fun t r => Text.replace r.1 r.2 t) s

theorem escape_eq (s : String) :
    escape s = references.foldl (fun t r => Text.replace r.1 r.2 t) s := rfl

attribute [irreducible] escape

def attrText (a : Attr) : String := " " ++ a.name ++ "=\"" ++ escape a.value ++ "\""

def attrsText (attrs : List Attr) : String := String.join (attrs.map attrText)

def pieceText : Piece → String
  | .group attrs => "<g" ++ attrsText attrs ++ ">"
  | .groupEnd => "</g>"
  | .leaf name attrs tail => "<" ++ name ++ attrsText attrs ++ tail ++ "/>"
  | .text attrs tail content =>
    "<text" ++ attrsText attrs ++ tail ++ ">" ++ escape content ++ "</text>"

def levels (depth : Nat) : Drawing → List (Nat × String)
  | [] => []
  | .group attrs :: rest => (depth, pieceText (.group attrs)) :: levels (depth + 1) rest
  | .groupEnd :: rest => (depth - 1, pieceText .groupEnd) :: levels (depth - 1) rest
  | piece :: rest => (depth, pieceText piece) :: levels depth rest

structure Layout where
  standalone : Bool := false
  pretty : Bool := true
  places : Nat := 2
  deriving Repr, DecidableEq

/-- the declaration in front of a standalone document -/
def declaration : String := "<?xml version=\"1.0\" encoding=\"UTF-8\"?>"

def rootStart (w h : String) : String :=
  s!"<svg xmlns=\"http://www.w3.org/2000/svg\" width=\"{w}\" height=\"{h}\" viewBox=\"0 0 {w} {h}\">"

/-- the style block, one line a rule; nothing without rules -/
def styleLines (styles : List String) : List (Nat × String) :=
  if styles.isEmpty then []
  else
    (1, "<style>") :: (styles.flatMap Text.lines).map (fun rule => (2, rule)) ++ [(1, "</style>")]

variable [Numerals]

def openingLines (layout : Layout) (width height : Float) (styles : List String) :
    List (Nat × String) :=
  (if layout.standalone then [(0, declaration)] else []) ++
    (0, rootStart (tidy layout.places width) (tidy layout.places height)) :: styleLines styles

def documentLines (layout : Layout) (width height : Float) (styles : List String)
    (drawing : Drawing) : List (Nat × String) :=
  openingLines layout width height styles ++ levels 1 drawing ++ [(0, "</svg>")]

theorem documentLines_eq (layout : Layout) (width height : Float) (styles : List String)
    (drawing : Drawing) :
    documentLines layout width height styles drawing
      = (if layout.standalone then [(0, declaration)] else []) ++
          (0, rootStart (tidy layout.places width) (tidy layout.places height)) ::
            (styleLines styles ++ levels 1 drawing ++ [(0, "</svg>")]) := by
  simp only [documentLines, openingLines, List.append_assoc, List.cons_append]

def margin (level : Nat) : String := String.ofList (List.replicate (2 * level) ' ')

def joinLines (pretty : Bool) (lines : List (Nat × String)) : String :=
  if pretty then "\n".intercalate (lines.map fun l => margin l.1 ++ l.2)
  else String.join (lines.map Prod.snd)

def document (layout : Layout) (width height : Float) (styles : List String) (drawing : Drawing) :
    String :=
  joinLines layout.pretty (documentLines layout width height styles drawing)

end Figures.Markup
