import Figures.Proofs.Sheet.Ids

/-!
# The circles of a picture

* `Markup.circles marks`      the ids of the circles in the tags of a document, as a reader has them
* `Drawing.circles d`         the ids of the circles of a drawing
* `circles_documentMarks`     a document has the circles of its drawing, in their order
* `circles_dot`, `circles_rule`, …   a pen draws circles for dots, and for nothing else
-/

namespace Figures

open Markup

def Piece.isCircle : Piece → Bool
  | .leaf name _ _ => name == "circle"
  | _ => false

def Drawing.circles (d : Drawing) : List String := Drawing.ids (d.filter Piece.isCircle)

namespace Markup

def Mark.isCircle : Mark → Bool
  | .opening name _ => name == "circle".toList
  | .single name _ => name == "circle".toList
  | _ => false

def circles (marks : List Mark) : List (List Char) := ids (marks.filter Mark.isCircle)

theorem circles_append (a b : List Mark) : circles (a ++ b) = circles a ++ circles b := by
  rw [circles, List.filter_append, ids_append, circles, circles]

theorem circles_of_none {marks : List Mark} (h : ∀ mark ∈ marks, mark.isCircle = false) :
    circles marks = [] := by
  rw [circles, List.filter_eq_nil_iff.mpr fun mark hmark => by simp [h mark hmark]]
  rfl

theorem circles_contentMark (raw : List Char) : circles (contentMark raw) = [] := by
  unfold contentMark
  split <;> rfl

theorem circles_pieceMarks (p : Piece) :
    circles (pieceMarks p) = (Drawing.circles [p]).map String.toList := by
  cases p with
  | group attrs => rfl
  | groupEnd => rfl
  | leaf name attrs tail =>
    have htag : Mark.isCircle (.single name.toList (attrs.map fieldOf)) = (name == "circle") := by
      rw [Bool.eq_iff_iff, Mark.isCircle, beq_iff_eq, beq_iff_eq]
      exact String.toList_inj
    rw [circles, Drawing.circles, pieceMarks, List.filter_singleton, List.filter_singleton, htag,
      Piece.isCircle]
    cases name == "circle" with
    | false => rfl
    | true => exact (ids_pieceMarks (.leaf name attrs tail)).trans (by simp [Drawing.ids])
  | text attrs tail content =>
    refine circles_of_none fun mark hmark => ?_
    rcases List.mem_cons.mp hmark with rfl | hmark
    · rfl
    · rcases List.mem_append.mp hmark with hmark | hmark
      · obtain ⟨raw, rfl⟩ : ∃ raw, mark = .content raw := by
          unfold contentMark at hmark
          split at hmark
          · exact absurd hmark List.not_mem_nil
          · exact ⟨_, List.mem_singleton.mp hmark⟩
        rfl
      · obtain rfl := List.mem_singleton.mp hmark
        rfl

end Markup

namespace Drawing

@[simp] theorem circles_nil : Drawing.circles [] = [] := rfl

@[simp] theorem circles_append (a b : Drawing) : Drawing.circles (a ++ b) = a.circles ++
    b.circles := by
  rw [circles, List.filter_append, ids_append, circles, circles]

theorem circles_cons (p : Piece) (d : Drawing) :
    Drawing.circles (p :: d) = Drawing.circles [p] ++ d.circles := circles_append [p] d

@[simp] theorem circles_flatMap {α : Type} (l : List α) (f : α → Drawing) :
    Drawing.circles (l.flatMap f) = l.flatMap fun x => (f x).circles := by
  rw [circles, List.filter_flatMap, ids_flatMap]
  rfl

@[simp] theorem circles_when (b : Bool) (d : Drawing) :
    (Drawing.when b d).circles = if b then d.circles else [] := by
  cases b <;> rfl

end Drawing

namespace Markup

theorem circles_drawingMarks (pretty : Bool) (depth : ℕ) (d : Drawing) :
    circles (drawingMarks pretty depth d) = d.circles.map String.toList := by
  have hlines : ∀ lines : List (ℕ × Piece), circles (lines.flatMap (lineMarks pretty))
      = (Drawing.circles (lines.map Prod.snd)).map String.toList := by
    intro lines
    induction lines with
    | nil => rfl
    | cons l lines ih =>
      rw [List.flatMap_cons, circles_append, ih, lineMarks, circles_append, circles_contentMark,
        List.nil_append, circles_pieceMarks, List.map_cons, Drawing.circles_cons l.2 (lines.map _),
        List.map_append]
  rw [drawingMarks, hlines, map_snd_placed]

theorem circles_documentMarks (layout : Layout) (width height : Float) (styles : List String)
    (d : Drawing) :
    circles (documentMarks layout width height styles d) = d.circles.map String.toList := by
  have hprolog : circles (prologMarks layout) = [] := by
    unfold prologMarks
    split
    · exact circles_contentMark _
    · rfl
  have hroot : ∀ fields rest, circles (.opening "svg".toList fields :: rest) = circles rest :=
    fun fields rest => rfl
  have hlast : circles [.closing "svg".toList] = [] := rfl
  have hstyle : circles (styleMarks layout.pretty styles) = [] := by
    unfold styleMarks
    split
    · rfl
    · have hopen : ∀ rest, circles (.opening "style".toList [] :: rest) = circles rest :=
        fun rest => rfl
      rw [circles_append, hopen, circles_append, circles_contentMark, circles_contentMark]
      rfl
  rw [documentMarks, circles_append, hprolog, hroot, circles_append, bodyMarks, circles_append,
    circles_append, hstyle, circles_contentMark, circles_drawingMarks, hlast]
  simp

end Markup

/-! ### what a pen draws -/

namespace Pen

variable (pen : Pen)

@[simp] theorem circles_group (name : String) (d : Drawing) :
    (Pen.group name d).circles = d.circles := by
  rw [Pen.group, List.cons_append, Drawing.circles_cons, Drawing.circles_append]
  exact List.append_nil _

@[simp] theorem circles_dot (name : String) (p : Point) :
    (pen.dot name p).circles = [Element.point.id name] := pen.ids_dot name p

@[simp] theorem circles_rule (name : String) (a b : Point) (cls : String) :
    (pen.rule name a b cls).circles = [] := rfl

@[simp] theorem circles_text (name content : String) (p : Point) (anchor : Anchor) (cls : String) :
    (pen.text name content p anchor cls).circles = [] := by
  unfold Pen.text
  split <;> rfl

end Pen

end Figures
