import Figures.Proofs.Markup.Document
import Figures.Proofs.Number.Tidy
import Figures.Proofs.Text.Pieces

/-!
# The root element of a document

* `root? s`            the fields of the first start tag of a text; nothing behind it is read
* `root?_document`     the fields of the root element, whatever stands in the document
* `parts s`            the parts of a text between blanks and commas
* `viewBox? s`         the numbers in the `viewBox` of the root element
* `viewBox?_document`  they are two zeros and the size of the document, rounded
-/

namespace Figures.Markup

namespace Scan

/-- the fields of the first start tag that has been read -/
def tag? (s : Scan) : Option (List Field) :=
  s.done.findSome? fun
    | .opening _ fields => some fields
    | _ => none

/-- reads characters up to the end of the first start tag -/
def firstTag? (s : Scan) : List Char → Option (List Field)
  | [] => s.tag?
  | c :: cs =>
    match s.tag? with
    | some fields => some fields
    | none => (s.step c).bind fun t => t.firstTag? cs

theorem exists_done_goOn {done : List Mark} {name : List Char} {fields : List Field} {c : Char}
    {s : Scan} (h : goOn done name fields c = some s) : ∃ marks, s.done = done ++ marks := by
  unfold goOn at h
  split_ifs at h <;> cases h
  · exact ⟨[], (List.append_nil done).symm⟩
  · exact ⟨_, rfl⟩
  · exact ⟨[], (List.append_nil done).symm⟩

/-- a step adds marks behind those that are there -/
theorem exists_done_step {s t : Scan} {c : Char} (h : s.step c = some t) :
    ∃ marks, t.done = s.done ++ marks := by
  obtain ⟨done, place⟩ := s
  cases place with
  | naming name =>
    simp only [step] at h
    split_ifs at h
    · cases h
      exact ⟨[], (List.append_nil done).symm⟩
    · exact exists_done_goOn h
  | behind name fields => exact exists_done_goOn h
  | outside | bracket | declaring | leaving | gap | key | equals | value | slash =>
    simp only [step] at h
    split_ifs at h <;> cases h <;>
      first | exact ⟨_, rfl⟩ | exact ⟨[], (List.append_nil done).symm⟩

theorem tag?_step {s t : Scan} {c : Char} {fields : List Field} (h : s.step c = some t)
    (htag : s.tag? = some fields) : t.tag? = some fields := by
  obtain ⟨marks, hdone⟩ := exists_done_step h
  rw [tag?, hdone, List.findSome?_append, ← tag?, htag, Option.some_or]

theorem tag?_run {s t : Scan} {cs : List Char} {fields : List Field} (h : s.run cs = some t)
    (htag : s.tag? = some fields) : t.tag? = some fields := by
  induction cs generalizing s with
  | nil =>
    cases h
    exact htag
  | cons c cs ih =>
    rw [run_cons] at h
    obtain ⟨u, hstep, hrun⟩ := Option.bind_eq_some_iff.mp h
    exact ih hrun (tag?_step hstep htag)

/-- what stands behind the first start tag does not matter -/
theorem firstTag?_append {s t : Scan} {front : List Char} {fields : List Field}
    (h : s.run front = some t) (htag : t.tag? = some fields) (rest : List Char) :
    s.firstTag? (front ++ rest) = some fields := by
  induction front generalizing s with
  | nil =>
    cases h
    cases rest with
    | nil => exact htag
    | cons c rest => rw [List.nil_append, firstTag?, htag]
  | cons c front ih =>
    rw [List.cons_append, firstTag?]
    cases hs : s.tag? with
    | some fields' => exact (tag?_run h hs).symm.trans htag
    | none =>
      rw [run_cons] at h
      obtain ⟨u, hstep, hrun⟩ := Option.bind_eq_some_iff.mp h
      rw [hstep]
      exact ih hrun

end Scan

/-- the fields of the first start tag of a text -/
def root? (s : String) : Option (List Field) := Scan.firstTag? ⟨[], .outside []⟩ s.toList

/-- the root is read first, whatever stands in the document -/
theorem root?_document (layout : Layout) (width height : Float) (styles : List String)
    (d : Drawing) :
    root? (document layout width height styles d) = some
      (rootFields (tidy layout.places width).toList (tidy layout.places height).toList) := by
  have hfields := readable_rootFields (quote_not_mem_tidy layout.places width)
    (quote_not_mem_tidy layout.places height)
  have hroot : ∀ done raw, Scan.run ⟨done, .outside raw⟩
      (rootStart (tidy layout.places width) (tidy layout.places height)).toList
        = some ⟨done ++ contentMark raw ++ [.opening "svg".toList
            (rootFields (tidy layout.places width).toList (tidy layout.places height).toList)],
            .outside []⟩ := by
    intro done raw
    rw [toList_rootStart, Scan.run_start _ (by decide) hfields (by decide)]
    rfl
  rw [root?, document, documentLines_eq]
  by_cases hstand : layout.standalone
  · have hdecl : Scan.run ⟨[], .outside []⟩ declaration.toList
        = some ⟨[.declaration declarationText], .outside []⟩ := by rfl
    have hfront : Scan.run ⟨[], .outside []⟩ (declaration.toList ++ gap layout.pretty 0 ++
        (rootStart (tidy layout.places width) (tidy layout.places height)).toList)
          = some ⟨[.declaration declarationText] ++ contentMark (gap layout.pretty 0) ++
              [.opening "svg".toList (rootFields (tidy layout.places width).toList
                (tidy layout.places height).toList)], .outside []⟩ := by
      rw [Scan.run_append, Scan.run_append, hdecl, Option.bind_some,
        Scan.run_content [] _ (lt_not_mem_gap _ 0), Option.bind_some, List.nil_append, hroot]
    have htag : Scan.tag? ⟨[.declaration declarationText] ++ contentMark (gap layout.pretty 0) ++
        [.opening "svg".toList (rootFields (tidy layout.places width).toList
          (tidy layout.places height).toList)], .outside []⟩ = some (rootFields
            (tidy layout.places width).toList (tidy layout.places height).toList) := by
      cases layout.pretty <;> rfl
    rw [if_pos hstand, List.cons_append, List.nil_append, toList_joinLines, woven_cons,
      ← List.append_assoc, ← List.append_assoc]
    exact Scan.firstTag?_append hfront htag _
  · rw [if_neg hstand, List.nil_append, toList_joinLines]
    exact Scan.firstTag?_append (hroot [] []) rfl _

/-! ### the view box -/

/-- what stands between the numbers of a view box -/
def separates (c : Char) : Bool := isBlank c || c == ','

def parts (s : String) : List String :=
  (Text.splitAt separates s).filter fun part => !part.isEmpty

/-- the numbers in the `viewBox` of the root element -/
def viewBox? (s : String) : Option (List ℚ) :=
  (root? s).bind fun fields => (fields.lookup "viewBox".toList).bind fun value =>
    (parts (String.ofList value)).mapM decimal?

theorem not_separates_of_numeral {c : Char} (h : numeral c = true) : separates c = false := by
  rcases numeral_cases h with ⟨hlow, hhigh⟩ | rfl | rfl
  · have hcomma : c ≠ ',' := by
      rintro rfl
      exact absurd hlow (by decide)
    simp only [separates, isBlank, Bool.or_eq_false_iff, Bool.and_eq_false_iff, beq_eq_false_iff_ne,
      ne_eq, decide_eq_false_iff_not, hcomma, not_false_eq_true, and_true]
    omega
  · rfl
  · rfl

theorem isEmpty_tidy (places : ℕ) (x : Float) : (tidy places x).isEmpty = false := by
  rw [Bool.eq_false_iff, Ne, String.isEmpty_iff]
  intro h
  have hread := decimal?_tidy places x
  rw [h] at hread
  exact absurd hread nofun

/-- two zeros and two decimals between blanks -/
theorem parts_viewBox (places : ℕ) (x y : Float) :
    parts (String.ofList ("0 0 ".toList ++ (tidy places x).toList ++ ' ' :: (tidy places y).toList))
      = ["0", "0", tidy places x, tidy places y] := by
  have hword : ∀ x : Float, ∀ c ∈ (tidy places x).toList, separates c = false :=
    fun x c hc => not_separates_of_numeral (numeral_tidy places x c hc)
  have hzero : ∀ c ∈ ['0'], separates c = false :=
    fun c hc => not_separates_of_numeral (List.mem_singleton.mp hc ▸ rfl)
  have hsplit : "0 0 ".toList ++ (tidy places x).toList ++ ' ' :: (tidy places y).toList
      = ['0'] ++ ' ' :: (['0'] ++ ' ' :: ((tidy places x).toList ++ ' ' ::
          (tidy places y).toList)) := rfl
  rw [parts, Text.splitAt, String.toList_ofList, hsplit, Text.splitAux_append hzero rfl,
    Text.splitAux_append hzero rfl, Text.splitAux_append (hword x) rfl,
    Text.splitAux_word (hword y)]
  simp [isEmpty_tidy]

theorem decimal?_zero : decimal? "0" = some 0 := by
  have hread := Fixed.decimal?_text ⟨false, 0, 0⟩
  rwa [Fixed.value, Nat.cast_zero, zero_div, mul_zero] at hread

theorem viewBox?_document (layout : Layout) (width height : Float) (styles : List String)
    (d : Drawing) : viewBox? (document layout width height styles d)
      = some [0, 0, rounded layout.places width, rounded layout.places height] := by
  have hlookup : (rootFields (tidy layout.places width).toList
      (tidy layout.places height).toList).lookup "viewBox".toList
        = some ("0 0 ".toList ++ (tidy layout.places width).toList ++
            ' ' :: (tidy layout.places height).toList) := rfl
  rw [viewBox?, root?_document, Option.bind_some, hlookup, Option.bind_some, parts_viewBox]
  simp only [List.mapM_cons, List.mapM_nil, decimal?_zero, decimal?_tidy]
  rfl

end Figures.Markup
