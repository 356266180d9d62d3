import Figures.Proofs.Markup.Reading
import Figures.Proofs.Number.Fixed
import Figures.Text.Blank

/-!
# Reading documents back

* `gap pretty level`   what stands in front of a line behind the first one
* `placed depth d`     the pieces of a drawing with the levels of their lines
* `drawingMarks`       the marks of a drawing inside a document
* `documentMarks`      the marks of a document
* `read_document`      a document is read as its marks, whatever its layout

Both layouts are read as the same tags; the pretty one has blank content between them.
-/

namespace Figures

namespace Text

theorem mem_dropReturn {piece : List Char} {c : Char} (h : c ∈ (dropReturn piece).toList) :
    c ∈ piece := by
  unfold dropReturn at h
  split at h
  · exact List.mem_cons_of_mem _ (by simpa using h)
  · simpa using h

theorem mem_linesAux {piece cs : List Char} {line : String} {c : Char}
    (hline : line ∈ linesAux piece cs) (hc : c ∈ line.toList) : c ∈ piece ∨ c ∈ cs := by
  induction cs generalizing piece with
  | nil =>
    unfold linesAux at hline
    split at hline
    · exact absurd hline List.not_mem_nil
    · obtain rfl := List.mem_singleton.mp hline
      exact .inl (by simpa using hc)
  | cons d cs ih =>
    unfold linesAux at hline
    split at hline
    · cases ‹_ :: _ = []›
    · rename_i rest heq
      cases heq
      rcases List.mem_cons.mp hline with rfl | hline
      · exact .inl (mem_dropReturn hc)
      · rcases ih hline with h | h
        · exact absurd h List.not_mem_nil
        · exact .inr (List.mem_cons_of_mem _ h)
    · rename_i heq
      cases heq
      rcases ih hline with h | h
      · rcases List.mem_cons.mp h with rfl | h
        · exact .inr List.mem_cons_self
        · exact .inl h
      · exact .inr (List.mem_cons_of_mem _ h)

theorem mem_lines {s line : String} {c : Char} (hline : line ∈ lines s) (hc : c ∈ line.toList) :
    c ∈ s.toList :=
  (mem_linesAux hline hc).resolve_left List.not_mem_nil

end Text

namespace Markup

/-! ### lines -/

/-- what stands in front of a line behind the first one -/
def gap (pretty : Bool) (level : Nat) : List Char :=
  if pretty then '\n' :: List.replicate (2 * level) ' ' else []

/-- the characters of the lines behind the first one -/
def woven (pretty : Bool) (lines : List (Nat × String)) : List Char :=
  lines.flatMap fun l => gap pretty l.1 ++ l.2.toList

theorem woven_nil (pretty : Bool) : woven pretty [] = [] := rfl

theorem woven_cons (pretty : Bool) (l : Nat × String) (lines : List (Nat × String)) :
    woven pretty (l :: lines) = gap pretty l.1 ++ l.2.toList ++ woven pretty lines :=
  List.flatMap_cons

theorem woven_append (pretty : Bool) (a b : List (Nat × String)) :
    woven pretty (a ++ b) = woven pretty a ++ woven pretty b := List.flatMap_append

/-- a text that starts with a line of level nought: the line, and every other one behind its gap -/
theorem toList_joinLines (pretty : Bool) (line : String) (lines : List (Nat × String)) :
    (joinLines pretty ((0, line) :: lines)).toList = line.toList ++ woven pretty lines := by
  cases pretty with
  | false =>
    simp [joinLines, woven, gap, List.flatMap_map]
  | true =>
    have hrest : ∀ (first : String) (lines : List (Nat × String)),
        ("\n".intercalate (first :: lines.map fun l => margin l.1 ++ l.2)).toList
          = first.toList ++ woven true lines := by
      intro first lines
      induction lines generalizing first with
      | nil => simp [woven]
      | cons l lines ih =>
        rw [List.map_cons, String.intercalate_cons_cons, String.toList_append, ih, woven_cons]
        simp [gap, margin]
    have hmargin : margin 0 = "" := rfl
    simp only [joinLines, if_true, List.map_cons, hmargin, String.empty_append, hrest]

theorem lt_not_mem_gap (pretty : Bool) (level : Nat) : '<' ∉ gap pretty level := by
  cases pretty <;> simp [gap]

/-! ### drawings -/

def placed (depth : Nat) : Drawing → List (Nat × Piece)
  | [] => []
  | .group attrs :: rest => (depth, .group attrs) :: placed (depth + 1) rest
  | .groupEnd :: rest => (depth - 1, .groupEnd) :: placed (depth - 1) rest
  | piece :: rest => (depth, piece) :: placed depth rest

theorem levels_eq (depth : Nat) (d : Drawing) :
    levels depth d = (placed depth d).map fun l => (l.1, pieceText l.2) := by
  fun_induction placed depth d <;> simp_all [levels]

theorem map_snd_placed (depth : Nat) (d : Drawing) : (placed depth d).map Prod.snd = d := by
  fun_induction placed depth d <;> simp_all

def lineMarks (pretty : Bool) (l : Nat × Piece) : List Mark :=
  contentMark (gap pretty l.1) ++ pieceMarks l.2

def drawingMarks (pretty : Bool) (depth : Nat) (d : Drawing) : List Mark :=
  (placed depth d).flatMap (lineMarks pretty)

theorem run_lines (pretty : Bool) {lines : List (Nat × Piece)}
    (h : ∀ l ∈ lines, WellNamed l.2) (done : List Mark) :
    Scan.run ⟨done, .outside []⟩ (woven pretty (lines.map fun l => (l.1, pieceText l.2)))
      = some ⟨done ++ lines.flatMap (lineMarks pretty), .outside []⟩ := by
  induction lines generalizing done with
  | nil => simp [woven, Scan.run_nil]
  | cons l lines ih =>
    rw [List.map_cons, woven_cons, Scan.run_append, Scan.run_append,
      Scan.run_content [] _ (lt_not_mem_gap pretty l.1), Option.bind_some, List.nil_append,
      run_piece (h l List.mem_cons_self), Option.bind_some,
      ih fun k hk => h k (List.mem_cons_of_mem l hk)]
    simp [lineMarks]

theorem run_drawing (pretty : Bool) (depth : Nat) {d : Drawing} (h : ∀ p ∈ d, WellNamed p)
    (done : List Mark) :
    Scan.run ⟨done, .outside []⟩ (woven pretty (levels depth d))
      = some ⟨done ++ drawingMarks pretty depth d, .outside []⟩ := by
  rw [levels_eq]
  refine run_lines pretty (fun l hl => h l.2 ?_) done
  rw [← map_snd_placed depth d]
  exact List.mem_map_of_mem hl

/-! ### the style block -/

def rulesText (pretty : Bool) (styles : List String) : List Char :=
  woven pretty ((styles.flatMap Text.lines).map fun rule => (2, rule)) ++ gap pretty 1

def styleMarks (pretty : Bool) (styles : List String) : List Mark :=
  if styles.isEmpty then []
  else
    contentMark (gap pretty 1) ++ .opening "style".toList [] ::
      (contentMark (rulesText pretty styles) ++ [.closing "style".toList])

theorem mem_rulesText {pretty : Bool} {styles : List String} {c : Char}
    (h : c ∈ rulesText pretty styles) :
    (∃ level, c ∈ gap pretty level) ∨ ∃ s ∈ styles, c ∈ s.toList := by
  rcases List.mem_append.mp h with h | h
  · obtain ⟨l, hl, hc⟩ := List.mem_flatMap.mp h
    obtain ⟨rule, hrule, rfl⟩ := List.mem_map.mp hl
    rcases List.mem_append.mp hc with hc | hc
    · exact .inl ⟨2, hc⟩
    · obtain ⟨s, hs, hline⟩ := List.mem_flatMap.mp hrule
      exact .inr ⟨s, hs, Text.mem_lines hline hc⟩
  · exact .inl ⟨1, h⟩

theorem run_styleLines (pretty : Bool) {styles : List String} (h : ∀ s ∈ styles, '<' ∉ s.toList)
    (done : List Mark) :
    Scan.run ⟨done, .outside []⟩ (woven pretty (styleLines styles))
      = some ⟨done ++ styleMarks pretty styles, .outside []⟩ := by
  unfold styleLines styleMarks
  split
  · rw [woven_nil, Scan.run_nil, List.append_nil]
  · have hrules : '<' ∉ rulesText pretty styles := by
      intro hc
      rcases mem_rulesText hc with ⟨level, hc⟩ | ⟨s, hs, hc⟩
      · exact lt_not_mem_gap pretty level hc
      · exact h s hs hc
    have hstart : Scan.run ⟨done, .outside (gap pretty 1)⟩ "<style>".toList
        = some ⟨done ++ contentMark (gap pretty 1) ++ [.opening "style".toList []], .outside []⟩ :=
      Scan.run_start [] (by decide : isName "style".toList = true)
        (fun f hf => absurd hf List.not_mem_nil) (by decide : nameChar '>' = false)
    have hend : ∀ done raw, Scan.run ⟨done, .outside raw⟩ "</style>".toList
        = some ⟨done ++ contentMark raw ++ [.closing "style".toList], .outside []⟩ :=
      fun done raw => Scan.run_end "style".toList (by decide)
    have htext : woven pretty ((1, "<style>") ::
          (styles.flatMap Text.lines).map (fun rule => (2, rule)) ++ [(1, "</style>")])
        = gap pretty 1 ++ ("<style>".toList ++ (rulesText pretty styles ++ "</style>".toList)) := by
      simp [rulesText, woven_cons, woven_append, woven_nil]
    rw [htext, Scan.run_append, Scan.run_content [] _ (lt_not_mem_gap pretty 1), Option.bind_some,
      List.nil_append, Scan.run_append, hstart, Option.bind_some, Scan.run_append,
      Scan.run_content [] _ hrules, Option.bind_some, List.nil_append, hend]
    simp

/-! ### documents -/

def rootFields (w h : List Char) : List Field :=
  [("xmlns".toList, "http://www.w3.org/2000/svg".toList), ("width".toList, w), ("height".toList, h),
   ("viewBox".toList, "0 0 ".toList ++ w ++ ' ' :: h)]

def declarationText : List Char := "xml version=\"1.0\" encoding=\"UTF-8\"".toList

def prologMarks (layout : Layout) : List Mark :=
  if layout.standalone then .declaration declarationText :: contentMark (gap layout.pretty 0)
  else []

def bodyMarks (layout : Layout) (styles : List String) (d : Drawing) : List Mark :=
  styleMarks layout.pretty styles ++ drawingMarks layout.pretty 1 d ++
    contentMark (gap layout.pretty 0)

def documentMarks (layout : Layout) (width height : Float) (styles : List String) (d : Drawing) :
    List Mark :=
  prologMarks layout ++
    .opening "svg".toList
      (rootFields (tidy layout.places width).toList (tidy layout.places height).toList) ::
    (bodyMarks layout styles d ++ [.closing "svg".toList])

theorem readable_rootFields {w h : List Char} (hw : '\x22' ∉ w) (hh : '\x22' ∉ h) :
    ∀ f ∈ rootFields w h, Readable f := by
  intro f hf
  simp only [rootFields, List.mem_cons, List.not_mem_nil, or_false] at hf
  rcases hf with rfl | rfl | rfl | rfl
  · exact ⟨by decide, by decide⟩
  · exact ⟨(by decide : isName "width".toList = true), hw⟩
  · exact ⟨(by decide : isName "height".toList = true), hh⟩
  · exact ⟨(by decide : isName "viewBox".toList = true), by simp [hw, hh]⟩

theorem toList_rootStart (w h : String) :
    (rootStart w h).toList
      = '<' :: "svg".toList ++ (rootFields w.toList h.toList).flatMap fieldText ++ ['>'] := by
  have hfirst : "<svg xmlns=\"http://www.w3.org/2000/svg\" width=\"".toList
      = '<' :: "svg".toList ++ fieldText ("xmlns".toList, "http://www.w3.org/2000/svg".toList) ++
          ' ' :: "width".toList ++ ['=', '\x22'] := rfl
  have htext : rootStart w h
      = "<svg xmlns=\"http://www.w3.org/2000/svg\" width=\"" ++ w ++ "\" height=\"" ++ h ++
          "\" viewBox=\"0 0 " ++ w ++ " " ++ h ++ "\">" := rfl
  rw [htext]
  simp only [String.toList_append, hfirst, rootFields, List.flatMap_cons, List.flatMap_nil]
  simp [fieldText]

theorem quote_not_mem_tidy (places : Nat) (x : Float) : '\x22' ∉ (tidy places x).toList :=
  fun h => absurd (numeral_tidy places x '\x22' h) (by decide)

theorem run_root (layout : Layout) (width height : Float) {styles : List String} {d : Drawing}
    (hstyles : ∀ s ∈ styles, '<' ∉ s.toList) (hd : ∀ p ∈ d, WellNamed p) (done : List Mark)
    (raw : List Char) :
    Scan.run ⟨done, .outside raw⟩
        ((rootStart (tidy layout.places width) (tidy layout.places height)).toList ++
          woven layout.pretty (styleLines styles ++ levels 1 d ++ [(0, "</svg>")]))
      = some ⟨done ++ contentMark raw ++
          .opening "svg".toList
            (rootFields (tidy layout.places width).toList (tidy layout.places height).toList) ::
          (bodyMarks layout styles d ++ [.closing "svg".toList]), .outside []⟩ := by
  have hfields := readable_rootFields (quote_not_mem_tidy layout.places width)
    (quote_not_mem_tidy layout.places height)
  have hend : ∀ done raw, Scan.run ⟨done, .outside raw⟩ "</svg>".toList
      = some ⟨done ++ contentMark raw ++ [.closing "svg".toList], .outside []⟩ :=
    fun done raw => Scan.run_end "svg".toList (by decide)
  have hlast : woven layout.pretty [(0, "</svg>")] = gap layout.pretty 0 ++ "</svg>".toList := by
    rw [woven_cons, woven_nil, List.append_nil]
  rw [toList_rootStart, Scan.run_append, Scan.run_start _ (by decide) hfields (by decide)]
  simp only [Scan.goOn, Char.reduceEq, if_false, if_true, Option.bind_some]
  rw [woven_append, woven_append, Scan.run_append, Scan.run_append, run_styleLines _ hstyles,
    Option.bind_some, run_drawing _ _ hd, Option.bind_some, hlast, Scan.run_append,
    Scan.run_content [] _ (lt_not_mem_gap _ 0), Option.bind_some, List.nil_append, hend]
  simp [bodyMarks]

theorem read_document (layout : Layout) (width height : Float) {styles : List String} {d : Drawing}
    (hstyles : ∀ s ∈ styles, '<' ∉ s.toList) (hd : ∀ p ∈ d, WellNamed p) :
    read? (document layout width height styles d)
      = some (documentMarks layout width height styles d) := by
  have hrun : Scan.run ⟨[], .outside []⟩ (document layout width height styles d).toList
      = some ⟨documentMarks layout width height styles d, .outside []⟩ := by
    rw [document, documentLines_eq]
    by_cases hstand : layout.standalone
    · have hdecl : ∀ raw, Scan.run ⟨[], .outside raw⟩ declaration.toList
          = some ⟨contentMark raw ++ [.declaration declarationText], .outside []⟩ := by
        intro raw
        rfl
      rw [if_pos hstand, List.cons_append, List.nil_append, toList_joinLines, Scan.run_append,
        hdecl, Option.bind_some, woven_cons, List.append_assoc, Scan.run_append,
        Scan.run_content [] _ (lt_not_mem_gap _ 0), Option.bind_some, run_root _ _ _ hstyles hd]
      simp [documentMarks, prologMarks, hstand, contentMark]
    · rw [if_neg hstand, List.nil_append, toList_joinLines, run_root _ _ _ hstyles hd]
      simp [documentMarks, prologMarks, hstand, contentMark]
  rw [read?, hrun]
  simp [Scan.close?, contentMark]

end Markup

end Figures
