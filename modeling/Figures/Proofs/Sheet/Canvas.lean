import Figures.Proofs.Markup.Nesting
import Figures.Sheet.Canvas

/-!
# Drawings on a canvas

* `Canvas.depth_put`, `depth_draw`    the level follows the groups that are open
* `Canvas.draw_eq`   a drawing that closes its groups adds its lines and leaves the level
* `Markup.levels_append`              what is drawn behind it starts at the same level
* `Canvas.finish_eq`   a canvas in whose root group there is a scene holds the scene's image
-/

namespace Figures

open Markup

namespace Canvas

theorem warnings_put (canvas : Canvas) (p : Piece) : (canvas.put p).warnings = canvas.warnings := by
  cases p <;> rfl

theorem warnings_draw (canvas : Canvas) (d : Drawing) :
    (canvas.draw d).warnings = canvas.warnings := by
  induction d generalizing canvas with
  | nil => rfl
  | cons p d ih => exact (ih (canvas.put p)).trans (warnings_put canvas p)

theorem lines_draw (canvas : Canvas) (d : Drawing) :
    (canvas.draw d).lines = canvas.lines ++ levels canvas.depth d := by
  induction d generalizing canvas with
  | nil => exact (List.append_nil _).symm
  | cons p d ih =>
    refine (ih (canvas.put p)).trans ?_
    cases p <;> simp [put, levels]

theorem draw_append (canvas : Canvas) (a b : Drawing) :
    canvas.draw (a ++ b) = (canvas.draw a).draw b := List.foldl_append

theorem draw_group (canvas : Canvas) (name : String) (content : Drawing) :
    canvas.draw (Pen.group name content)
      = ((canvas.put (Pen.groupStart name)).draw content).put .groupEnd :=
  draw_append _ (Pen.groupStart name :: content) [.groupEnd]

theorem draw_warn (canvas : Canvas) (warnings : List String) (d : Drawing) :
    (canvas.warn warnings).draw d = (canvas.draw d).warn warnings := by
  induction d generalizing canvas with
  | nil => rfl
  | cons p d ih =>
    have hput : (canvas.warn warnings).put p = (canvas.put p).warn warnings := by cases p <;> rfl
    calc (canvas.warn warnings).draw (p :: d)
        = ((canvas.put p).warn warnings).draw d := congrArg (draw · d) hput
      _ = _ := ih (canvas.put p)

theorem warn_nil (canvas : Canvas) : canvas.warn [] = canvas := by
  rw [warn, List.append_nil]

theorem warn_append (canvas : Canvas) (a b : List String) :
    canvas.warn (a ++ b) = (canvas.warn a).warn b := by
  rw [warn, warn, warn, List.append_assoc]

/-- a piece moves the level as its marks move the elements that are open -/
theorem depth_put {canvas : Canvas} {p : Piece} {stack mid : List (List Char)}
    (hstack : stack.length = canvas.depth) (h : (pieceMarks p).foldlM nest stack = some mid) :
    mid.length = (canvas.put p).depth := by
  cases p with
  | group attrs =>
    cases h
    exact congrArg (· + 1) hstack
  | groupEnd =>
    cases stack with
    | nil => cases h
    | cons top rest =>
      have hclose : nest (top :: rest) (.closing ['g']) = some mid := by
        rw [← h, pieceMarks, List.foldlM_cons]
        cases nest (top :: rest) (.closing ['g']) <;> rfl
      simp only [nest] at hclose
      split at hclose
      · obtain rfl := Option.some.inj hclose
        exact (Nat.sub_eq_of_eq_add hstack.symm).symm
      · cases hclose
  | leaf name attrs tail =>
    cases h
    exact hstack
  | text attrs tail content =>
    have hmarks := (nested_contentMark (escape content).toList).element "text".toList
      (attrs.map fieldOf) stack
    obtain rfl := Option.some.inj (h.symm.trans hmarks)
    exact hstack

theorem depth_draw {canvas : Canvas} {d : Drawing} {stack rest : List (List Char)}
    (hstack : stack.length = canvas.depth)
    (h : (d.flatMap pieceMarks).foldlM nest stack = some rest) :
    rest.length = (canvas.draw d).depth := by
  induction d generalizing canvas stack with
  | nil =>
    cases h
    exact hstack
  | cons p d ih =>
    rw [List.flatMap_cons, List.foldlM_append] at h
    obtain ⟨mid, hmid, hrest⟩ := Option.bind_eq_some_iff.mp h
    exact ih (depth_put hstack hmid) hrest

/-- a drawing that closes its groups leaves the level of the canvas -/
theorem draw_eq {d : Drawing} (h : Nested (d.flatMap pieceMarks)) (canvas : Canvas) :
    canvas.draw d = { canvas with lines := canvas.lines ++ levels canvas.depth d } := by
  have hdepth : (canvas.draw d).depth = canvas.depth :=
    (depth_draw List.length_replicate (h (List.replicate canvas.depth ['g']))).symm.trans
      List.length_replicate
  calc canvas.draw d
      = ⟨(canvas.draw d).lines, (canvas.draw d).depth, (canvas.draw d).warnings⟩ := rfl
    _ = _ := by rw [lines_draw, hdepth, warnings_draw]

end Canvas

/-- a drawing that closes its groups is followed by one at the same level -/
theorem Markup.levels_append {a : Drawing} (h : Nested (a.flatMap pieceMarks)) (b : Drawing)
    (depth : Nat) : levels depth (a ++ b) = levels depth a ++ levels depth b := by
  have hcanvas := congrArg Canvas.lines (Canvas.draw_append ⟨[], depth, []⟩ a b)
  rw [Canvas.draw_eq h] at hcanvas
  simpa only [Canvas.lines_draw, List.nil_append] using hcanvas

theorem Markup.levels_group {content : Drawing} (h : Nested (content.flatMap pieceMarks))
    (name : String) (depth : Nat) :
    levels depth (Pen.group name content)
      = (depth, pieceText (Pen.groupStart name)) ::
          (levels (depth + 1) content ++ [(depth, pieceText .groupEnd)]) := by
  rw [Pen.group, List.cons_append, Pen.groupStart, Piece.groupOf, levels, levels_append h]
  rfl

/-- a canvas in whose root group there is a scene holds the image of the scene -/
theorem Canvas.finish_eq (s : Scene) (h : Nested (s.drawing.flatMap pieceMarks)) (ctx : Context) :
    (((Canvas.start s.root).draw s.drawing).warn s.warnings).finish s.width s.height ctx =
      s.image ctx := by
  have hlines : ((((Canvas.start s.root).draw s.drawing).warn s.warnings).put .groupEnd).lines
      = levels 1 (Pen.group s.root s.drawing) := by
    rw [draw_eq h, levels_group h]
    rfl
  rw [finish, hlines, Scene.image, document, documentLines, draw_eq h]
  rfl

end Figures
