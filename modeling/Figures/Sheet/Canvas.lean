import Figures.Sheet.Pen

/-!
# Canvases

* `Canvas`                lines with their levels, the level of the next line, and warnings
* `Canvas.put`, `draw`    one piece, and a drawing piece by piece, on a canvas
* `Canvas.start`, `finish`    a canvas with its root group open, and its image when the group is
                              closed

All shapes of a blueprint share one canvas: what one of them leaves there, the next one finds.
-/

namespace Figures

open Markup

structure Canvas where
  /-- the lines so far, with their levels -/
  lines : List (Nat × String)
  /-- the level of the next line -/
  depth : Nat
  warnings : List String

namespace Canvas

/-- nothing drawn yet, inside the root element -/
def empty : Canvas := ⟨[], 1, []⟩

/-- one piece on the canvas: what stands in a group is one level deeper than its tags -/
def put (canvas : Canvas) : Piece → Canvas
  | .group attrs =>
    { canvas with
      lines := canvas.lines ++ [(canvas.depth, pieceText (.group attrs))]
      depth := canvas.depth + 1 }
  | .groupEnd =>
    { canvas with
      lines := canvas.lines ++ [(canvas.depth - 1, pieceText .groupEnd)]
      depth := canvas.depth - 1 }
  | piece => { canvas with lines := canvas.lines ++ [(canvas.depth, pieceText piece)] }

def draw (canvas : Canvas) (d : Drawing) : Canvas := d.foldl put canvas

def warn (canvas : Canvas) (warnings : List String) : Canvas :=
  { canvas with warnings := canvas.warnings ++ warnings }

/-- a canvas with its root group open -/
def start (root : String) : Canvas := empty.put (Pen.groupStart root)

/-- the root group is closed, and the lines stand in a document of some size -/
def finish (canvas : Canvas) (width height : Float) (ctx : Context) : Image where
  svg := joinLines ctx.layout.pretty
    (openingLines ctx.layout width height [ctx.palette.styleBlock] ++
      (canvas.put .groupEnd).lines ++ [(0, "</svg>")])
  width := width
  height := height
  warnings := canvas.warnings

end Canvas

end Figures
