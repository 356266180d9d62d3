import Figures.Proofs.Markup.Document
import Figures.Proofs.Markup.Escape
import Figures.Proofs.Text.Spelled

/-!
# The characters of documents

* `Piece.words`        the names, values and texts of a piece
* `mem_escape_iff`     escaping lets every character pass that XML does not allow
* `mem_document_iff`   a document holds such a character if a word of its drawing does
-/

namespace Figures

def Attr.words (a : Attr) : List String := [a.name, a.value]

/-- the names, values and texts of a piece, not yet escaped -/
def Piece.words : Piece → List String
  | .group attrs => attrs.flatMap Attr.words
  | .groupEnd => []
  | .leaf name attrs tail => name :: tail :: attrs.flatMap Attr.words
  | .text attrs tail content => content :: tail :: attrs.flatMap Attr.words

namespace Markup

variable {c : Char} (hc : xmlChar c = false)
include hc

/-- a character that XML does not allow is in no text of allowed ones -/
theorem not_mem_of_allowed {s : String} (h : Allowed s) : c ∉ s.toList := by
  intro hmem
  rw [h.xmlChar hmem] at hc
  cases hc

theorem mem_append_left_iff {s t : String} (h : Allowed s) :
    c ∈ (s ++ t).toList ↔ c ∈ t.toList := by
  rw [String.toList_append, List.mem_append]
  exact or_iff_right (not_mem_of_allowed hc h)

theorem mem_append_right_iff {s t : String} (h : Allowed t) :
    c ∈ (s ++ t).toList ↔ c ∈ s.toList := by
  rw [String.toList_append, List.mem_append]
  exact or_iff_left (not_mem_of_allowed hc h)

/-- only special characters are replaced, and XML allows them and what stands for them -/
theorem mem_escape_iff {s : String} : c ∈ (escape s).toList ↔ c ∈ s.toList := by
  have hspecial : special.all xmlChar = true := by decide
  have hentities : ∀ e ∈ entities, e.all xmlChar = true := by decide
  rw [toList_escape, List.mem_flatMap]
  constructor
  · rintro ⟨d, hd, hmem⟩
    rcases escapeChar_form d with he | ⟨-, heq⟩
    · have hallowed := List.all_eq_true.mp (hentities _ he) c hmem
      rw [hc] at hallowed
      cases hallowed
    · rw [heq, List.mem_singleton] at hmem
      exact hmem ▸ hd
  · intro hmem
    refine ⟨c, hmem, ?_⟩
    have hne : c ∉ special := by
      intro hin
      rw [List.all_eq_true.mp hspecial c hin] at hc
      cases hc
    rw [escapeChar_of_not_mem hne]
    exact List.mem_singleton_self c

theorem mem_attrText_iff {a : Attr} :
    c ∈ (attrText a).toList ↔ ∃ w ∈ a.words, c ∈ w.toList := by
  rw [attrText, mem_append_right_iff hc (by decide), String.toList_append, List.mem_append,
    mem_append_right_iff hc (by decide), mem_append_left_iff hc (by decide), mem_escape_iff hc]
  simp [Attr.words]

theorem mem_attrsText_iff {attrs : List Attr} :
    c ∈ (attrsText attrs).toList ↔ ∃ w ∈ attrs.flatMap Attr.words, c ∈ w.toList := by
  simp only [attrsText, String.toList_join, List.mem_flatMap, List.mem_map]
  constructor
  · rintro ⟨_, ⟨a, ha, rfl⟩, hmem⟩
    obtain ⟨w, hw, hcw⟩ := (mem_attrText_iff hc).mp hmem
    exact ⟨w, ⟨a, ha, hw⟩, hcw⟩
  · rintro ⟨w, ⟨a, ha, hw⟩, hcw⟩
    exact ⟨_, ⟨a, ha, rfl⟩, (mem_attrText_iff hc).mpr ⟨w, hw, hcw⟩⟩

theorem mem_pieceText_iff {p : Piece} :
    c ∈ (pieceText p).toList ↔ ∃ w ∈ p.words, c ∈ w.toList := by
  cases p with
  | group attrs =>
    rw [pieceText, mem_append_right_iff hc (by decide), mem_append_left_iff hc (by decide),
      mem_attrsText_iff hc]
    rfl
  | groupEnd =>
    have hend : c ∉ (pieceText .groupEnd).toList := not_mem_of_allowed hc (by decide)
    simpa only [Piece.words, List.not_mem_nil, false_and, exists_false, iff_false] using hend
  | leaf name attrs tail =>
    rw [pieceText, mem_append_right_iff hc (by decide), String.toList_append, List.mem_append,
      String.toList_append, List.mem_append, mem_append_left_iff hc (by decide),
      mem_attrsText_iff hc]
    simp only [Piece.words, List.mem_cons, exists_eq_or_imp]
    rw [or_assoc]
    exact or_congr_right or_comm
  | text attrs tail content =>
    rw [pieceText, mem_append_right_iff hc (by decide), String.toList_append, List.mem_append,
      mem_append_right_iff hc (by decide), String.toList_append, List.mem_append,
      mem_append_left_iff hc (by decide), mem_escape_iff hc, mem_attrsText_iff hc]
    simp only [Piece.words, List.mem_cons, exists_eq_or_imp]
    rw [or_comm]
    exact or_congr_right or_comm

theorem mem_joinLines_iff {pretty : Bool} {lines : List (Nat × String)} :
    c ∈ (joinLines pretty lines).toList ↔ ∃ l ∈ lines, c ∈ l.2.toList := by
  have hblank : c ≠ ' ' := by
    rintro rfl
    exact absurd hc (by decide)
  have hmargin : ∀ level, c ∉ (margin level).toList := by
    intro level hmem
    rw [margin, String.toList_ofList] at hmem
    exact hblank (List.eq_of_mem_replicate hmem)
  have hpretty : ∀ texts : List String,
      c ∈ ("\n".intercalate texts).toList ↔ ∃ t ∈ texts, c ∈ t.toList := by
    intro texts
    induction texts with
    | nil => simp
    | cons t texts ih =>
      cases texts with
      | nil => simp
      | cons u texts =>
        rw [String.intercalate_cons_cons, String.toList_append, List.mem_append,
          mem_append_right_iff hc (by decide), ih]
        simp only [List.mem_cons, exists_eq_or_imp]
  unfold joinLines
  cases pretty with
  | false =>
    simp only [Bool.false_eq_true, if_false, String.toList_join, List.mem_flatMap, List.mem_map]
    constructor
    · rintro ⟨_, ⟨l, hl, rfl⟩, hmem⟩
      exact ⟨l, hl, hmem⟩
    · rintro ⟨l, hl, hmem⟩
      exact ⟨_, ⟨l, hl, rfl⟩, hmem⟩
  | true =>
    simp only [if_true]
    rw [hpretty]
    simp only [List.mem_map]
    constructor
    · rintro ⟨_, ⟨l, hl, rfl⟩, hmem⟩
      rw [String.toList_append, List.mem_append] at hmem
      exact ⟨l, hl, hmem.resolve_left (hmargin l.1)⟩
    · rintro ⟨l, hl, hmem⟩
      refine ⟨_, ⟨l, hl, rfl⟩, ?_⟩
      rw [String.toList_append, List.mem_append]
      exact .inr hmem

theorem not_mem_rootStart {w h : String} (hw : Allowed w) (hh : Allowed h) :
    c ∉ (rootStart w h).toList := by
  refine not_mem_of_allowed hc (spelled_nil_iff.mp ?_)
  have hsize : Spelled [] w ∧ Spelled [] h := ⟨spelled_nil_iff.mpr hw, spelled_nil_iff.mpr hh⟩
  unfold rootStart
  simp only [spelled_append, toString]
  refine ⟨⟨⟨⟨⟨⟨⟨⟨?_, hsize.1⟩, ?_⟩, hsize.2⟩, ?_⟩, hsize.1⟩, ?_⟩, hsize.2⟩, ?_⟩
  all_goals exact spelled_of_allowed (by decide)

theorem not_mem_styleLines {styles : List String} (h : ∀ s ∈ styles, Allowed s) :
    ∀ l ∈ styleLines styles, c ∉ l.2.toList := by
  intro l hl
  unfold styleLines at hl
  split at hl
  · exact absurd hl List.not_mem_nil
  · simp only [List.mem_append, List.mem_cons, List.not_mem_nil, or_false, List.mem_map,
      List.mem_flatMap] at hl
    rcases hl with (rfl | ⟨rule, ⟨s, hs, hrule⟩, rfl⟩) | rfl
    · exact not_mem_of_allowed hc (by decide)
    · exact fun hmem => not_mem_of_allowed hc (h s hs) (Text.mem_lines hrule hmem)
    · exact not_mem_of_allowed hc (by decide)

/-- Between allowed style rules a document holds a character that XML does not allow exactly if a
word of its drawing does: nothing filters it, and nothing else brings one in. -/
theorem mem_document_iff (layout : Layout) (width height : Float) {styles : List String}
    (hstyles : ∀ s ∈ styles, Allowed s) (d : Drawing) :
    c ∈ (document layout width height styles d).toList ↔ ∃ p ∈ d, ∃ w ∈ p.words, c ∈ w.toList := by
  have htidy : ∀ x, Allowed (tidy layout.places x) := fun x => spelled_nil_iff.mp (spelled_tidy _ x)
  have hlevels : (∃ l ∈ levels 1 d, c ∈ l.2.toList) ↔ ∃ p ∈ d, ∃ w ∈ p.words, c ∈ w.toList := by
    have hplaced : (∃ l ∈ levels 1 d, c ∈ l.2.toList) ↔ ∃ p ∈ (placed 1 d).map Prod.snd,
        c ∈ (pieceText p).toList := by
      simp only [levels_eq, List.mem_map]
      constructor
      · rintro ⟨_, ⟨l, hl, rfl⟩, hmem⟩
        exact ⟨l.2, ⟨l, hl, rfl⟩, hmem⟩
      · rintro ⟨_, ⟨l, hl, rfl⟩, hmem⟩
        exact ⟨_, ⟨l, hl, rfl⟩, hmem⟩
    rw [hplaced, map_snd_placed]
    simp only [mem_pieceText_iff hc]
  have hdeclaration : c ∉ declaration.toList := not_mem_of_allowed hc (by decide)
  have hclosing : c ∉ "</svg>".toList := not_mem_of_allowed hc (by decide)
  have hroot := not_mem_rootStart hc (htidy width) (htidy height)
  rw [document, mem_joinLines_iff hc, documentLines_eq, ← hlevels]
  constructor
  · rintro ⟨l, hl, hmem⟩
    simp only [List.mem_append, List.mem_cons, List.not_mem_nil, or_false] at hl
    rcases hl with hl | rfl | (hl | hl) | rfl
    · split at hl
      · obtain rfl := List.mem_singleton.mp hl
        exact absurd hmem hdeclaration
      · exact absurd hl List.not_mem_nil
    · exact absurd hmem hroot
    · exact absurd hmem (not_mem_styleLines hc hstyles l hl)
    · exact ⟨l, hl, hmem⟩
    · exact absurd hmem hclosing
  · rintro ⟨l, hl, hmem⟩
    exact ⟨l, List.mem_append_right _ (List.mem_cons_of_mem _
      (List.mem_append_left _ (List.mem_append_right _ hl))), hmem⟩

end Markup

end Figures
