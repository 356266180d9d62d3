import Figures.Proofs.Markup.Document
import Figures.Proofs.Markup.Escape
import Mathlib.Algebra.GroupWithZero.Nat

/-!
# Marks in documents

* `marks s`          how often a text holds the sign of infinity, which no layout writes
* `marks_escape`     as often as its markup does
* `tally d`          how often the markup of a drawing holds it
* `marks_document`   a document holds it as often as its parts do
-/

namespace Figures

open Markup

/-- how often a text holds the sign of infinity -/
def marks (s : String) : Nat := s.toList.count '∞'

theorem marks_append (s t : String) : marks (s ++ t) = marks s + marks t := by
  rw [marks, String.toList_append, List.count_append]
  rfl

theorem marks_join (texts : List String) : marks (String.join texts) = (texts.map marks).sum := by
  rw [marks, String.toList_join, List.count_flatMap]
  rfl

theorem marks_intercalate {separator : String} (h : marks separator = 0) (texts : List String) :
    marks (separator.intercalate texts) = (texts.map marks).sum := by
  induction texts with
  | nil => rfl
  | cons t texts ih =>
    cases texts with
    | nil => exact (Nat.add_zero _).symm
    | cons u texts =>
      rw [String.intercalate_cons_cons, marks_append, marks_append, h, ih]
      rfl

/-- the sign of infinity is not special, and in no entity -/
theorem marks_escape (s : String) : marks (escape s) = marks s := by
  rw [marks, toList_escape, marks]
  induction s.toList with
  | nil => rfl
  | cons c cs ih =>
    have hchar : (escapeChar c).count '∞' = [c].count '∞' := by
      rcases escapeChar_form c with he | ⟨-, heq⟩
      · have hspecial : c ≠ '∞' := by
          rintro rfl
          exact absurd he (by decide)
        have hentities : ∀ e ∈ entities, e.count '∞' = 0 := by decide
        rw [hentities _ he, List.count_cons_of_ne (by simpa using hspecial), List.count_nil]
      · rw [heq]
    rw [List.flatMap_cons, List.count_append, ih, hchar, ← List.count_append]
    rfl

/-! ### parts of a document -/

/-- how often the markup of an attribute holds the sign of infinity -/
def Attr.marks (a : Attr) : Nat := Figures.marks (attrText a)

theorem marks_attr (name value : String) :
    Attr.marks ⟨name, value⟩ = marks value + (marks " " + marks name + marks
      "=\"" + marks "\"") := by
  rw [Attr.marks, attrText, marks_append, marks_append, marks_append, marks_append, marks_escape]
  dsimp only
  omega

theorem marks_attrsText (attrs : List Attr) : marks (attrsText attrs) =
    (attrs.map Attr.marks).sum := by
  rw [attrsText, marks_join, List.map_map]
  rfl

/-- how often the markup of a drawing holds the sign of infinity -/
def tally (d : Drawing) : Nat := (d.map fun p => marks (pieceText p)).sum

@[simp] theorem tally_nil : tally [] = 0 := rfl

@[simp] theorem tally_cons (p : Piece) (d : Drawing) : tally (p :: d) = marks
    (pieceText p) + tally d := rfl

@[simp] theorem tally_append (d e : Drawing) : tally (d ++ e) = tally d + tally e := by
  rw [tally, List.map_append, List.sum_append]
  rfl

/-! ### the document -/

theorem marks_margin (level : Nat) : marks (margin level) = 0 := by
  rw [marks, margin, String.toList_ofList, List.count_eq_zero]
  exact fun hmem => absurd (List.eq_of_mem_replicate hmem) (by decide)

theorem marks_joinLines (pretty : Bool) (lines : List (Nat × String)) :
    marks (joinLines pretty lines) = (lines.map fun l => marks l.2).sum := by
  cases pretty with
  | false => exact (marks_join _).trans (congrArg List.sum (List.map_map ..))
  | true =>
    have hline : ∀ l : Nat × String, marks (margin l.1 ++ l.2) = marks l.2 := fun l => by
      rw [marks_append, marks_margin, Nat.zero_add]
    refine (marks_intercalate (by decide) _).trans ?_
    rw [List.map_map]
    exact congrArg List.sum (List.map_congr_left fun l _ => hline l)

theorem marks_levels (depth : Nat) (d : Drawing) :
    ((levels depth d).map fun l => marks l.2).sum = tally d := by
  rw [levels_eq, List.map_map, tally, ← map_snd_placed depth d, List.map_map, map_snd_placed]
  rfl

/-- a document holds the sign of infinity as often as its size, its style and its drawing do -/
theorem marks_document [Numerals] (layout : Layout) (width height : Float) (styles : List String)
    (d : Drawing) : marks (document layout width height styles d) = tally d +
      (marks (document layout width height styles [])) := by
  simp only [document, documentLines_eq, marks_joinLines, List.map_append, List.map_cons,
    List.sum_append, List.sum_cons, marks_levels, tally_nil]
  omega

end Figures
