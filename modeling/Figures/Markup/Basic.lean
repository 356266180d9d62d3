import Figures.Plane.Path

/-!
# Drawings as pieces of markup

* `Attr`              an attribute, its value not yet escaped
* `Piece`             what a drawing is made of: the start and the end of a group, elements without
                      content, and texts
* `Look`              what an element carries besides its geometry: id, class, style
* `Piece.line`, …     the elements, their numbers rounded to some places
* `Drawing`           a list of pieces; later pieces are painted over earlier ones

A drawing is data: it is only turned into text by `Markup.document`.
-/

namespace Figures

/-- where a text stands relative to its point -/
inductive Anchor where
  | start
  | middle
  | finish
  deriving Repr, DecidableEq

namespace Anchor

def name : Anchor → String
  | start => "start"
  | middle => "middle"
  | finish => "end"

def ofName? (s : String) : Option Anchor :=
  if s = "start" then some start
  else if s = "middle" then some middle
  else if s = "end" then some finish
  else none

end Anchor

/-- an attribute; the value is plain text -/
structure Attr where
  name : String
  value : String
  deriving Repr, DecidableEq

/-- a piece of a drawing. `tail` is text that stands as it is behind the attributes -/
inductive Piece where
  | group (attrs : List Attr)
  | groupEnd
  | leaf (name : String) (attrs : List Attr) (tail : String)
  | text (attrs : List Attr) (tail : String) (content : String)
  deriving Repr, DecidableEq

abbrev Drawing := List Piece

/-- what an element carries besides its geometry -/
structure Look where
  id : Option String := none
  cls : Option String := none
  style : List Attr := []
  tail : String := ""

namespace Look

/-- the attributes before the geometry; an empty class is not written -/
def identity (look : Look) : List Attr :=
  (look.id.map (Attr.mk "id")).toList ++
    ((look.cls.filter fun c => !c.isEmpty).map (Attr.mk "class")).toList

end Look

namespace Piece

def groupOf (look : Look) : Piece := .group look.identity

/-- an element without content: identity, geometry, style -/
def element (name : String) (look : Look) (geometry : List Attr) : Piece :=
  .leaf name (look.identity ++ geometry ++ look.style) look.tail

variable [Numerals] (places : Nat)

def number (name : String) (x : Float) : Attr := ⟨name, tidy places x⟩

def line (look : Look) (a b : Point) : Piece :=
  element "line" look
    [number places "x1" a.x, number places "y1" a.y, number places "x2" b.x, number places "y2" b.y]

def rect (look : Look) (corner : Point) (width height : Float) : Piece :=
  element "rect" look
    [number places "x" corner.x, number places "y" corner.y,
     number places "width" width, number places "height" height]

def circle (look : Look) (center : Point) (r : Float) : Piece :=
  element "circle" look
    [number places "cx" center.x, number places "cy" center.y, number places "r" r]

def ellipse (look : Look) (center : Point) (rx ry : Float) : Piece :=
  element "ellipse" look
    [number places "cx" center.x, number places "cy" center.y,
     number places "rx" rx, number places "ry" ry]

/-- the points of a polygon, coordinates joined by commas -/
def pointsText (points : List Point) : String :=
  " ".intercalate (points.map fun p => tidy places p.x ++ "," ++ tidy places p.y)

def polygon (look : Look) (points : List Point) : Piece :=
  element "polygon" look [⟨"points", pointsText places points⟩]

def polyline (look : Look) (points : List Point) : Piece :=
  element "polyline" look [⟨"points", pointsText places points⟩]

def path (look : Look) (p : Path) : Piece :=
  element "path" look [⟨"d", p.text places⟩]

/-- a text, vertically centred on its point -/
def label (look : Look) (content : String) (at' : Point) (anchor : Anchor) : Piece :=
  .text
    (look.identity ++
      [number places "x" at'.x, number places "y" at'.y,
       ⟨"text-anchor", anchor.name⟩, ⟨"dominant-baseline", "middle"⟩] ++ look.style)
    look.tail content

end Piece

end Figures
