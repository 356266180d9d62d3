import Figures.Proofs.Markup.Document

/-!
# Nested documents

* `nest`                     what a mark does to the elements that are open
* `Nested`                   every start tag has its own end tag, the last one opened closed first
* `IsDocument`               the marks of one document: a prolog or none, and one root element
                             around a nested body
* `Sound`                    what a drawing has to be for that: named tags, and groups that are
                             closed
* `isDocument_document`      the marks of a document around a sound drawing are one document
-/

namespace Figures.Markup

/-! ### nesting -/

/-- the open elements behind a mark, innermost first; nothing if an end tag is not that of the
innermost element -/
def nest (stack : List (List Char)) : Mark → Option (List (List Char))
  | .opening name _ => some (name :: stack)
  | .closing name =>
    match stack with
    | top :: rest => if top = name then some rest else none
    | [] => none
  | .declaration _ => none
  | .single _ _ => some stack
  | .content _ => some stack

/-- marks that leave open what was open, and close whatever they open -/
def Nested (marks : List Mark) : Prop := ∀ stack, marks.foldlM nest stack = some stack

theorem nested_nil : Nested [] := fun _ => rfl

theorem Nested.append {a b : List Mark} (ha : Nested a) (hb : Nested b) : Nested (a ++ b) := by
  intro stack
  rw [List.foldlM_append, ha stack]
  exact hb stack

theorem Nested.flatMap {α : Type} {l : List α} {f : α → List Mark} (h : ∀ x ∈ l, Nested (f x)) :
    Nested (l.flatMap f) := by
  induction l with
  | nil => exact nested_nil
  | cons x l ih =>
    rw [List.flatMap_cons]
    exact (h x List.mem_cons_self).append (ih fun y hy => h y (List.mem_cons_of_mem x hy))

theorem Nested.element {marks : List Mark} (h : Nested marks) (name : List Char)
    (fields : List Field) : Nested (.opening name fields :: (marks ++ [.closing name])) := by
  intro stack
  have hopen : nest stack (.opening name fields) = some (name :: stack) := rfl
  have hclose : nest (name :: stack) (.closing name) = some stack := if_pos rfl
  rw [List.foldlM_cons, hopen, Option.bind_eq_bind, Option.bind_some, List.foldlM_append,
    h (name :: stack), Option.bind_eq_bind, Option.bind_some, List.foldlM_cons, hclose]
  rfl

theorem nested_contentMark (raw : List Char) : Nested (contentMark raw) := by
  intro stack
  unfold contentMark
  split <;> rfl

theorem foldlM_nest_lines (pretty : Bool) (lines : List (Nat × Piece)) (stack : List (List Char)) :
    (lines.flatMap (lineMarks pretty)).foldlM nest stack
      = ((lines.map Prod.snd).flatMap pieceMarks).foldlM nest stack := by
  induction lines generalizing stack with
  | nil => rfl
  | cons l lines ih =>
    simp only [List.flatMap_cons, List.map_cons, lineMarks, List.foldlM_append,
      nested_contentMark (gap pretty l.1) stack, Option.bind_eq_bind, Option.bind_some, ih]

/-! ### documents -/

/-- the elements with an end tag, apart from the root -/
def paired : List (List Char) := ["g".toList, "style".toList, "text".toList]

def Mark.fields : Mark → List Field
  | .opening _ fields => fields
  | .single _ fields => fields
  | _ => []

/-- what stands in front of the root: nothing, or the declaration with nothing but blanks behind
it -/
def IsProlog (marks : List Mark) : Prop :=
  marks = [] ∨ ∃ raw, marks = .declaration declarationText :: contentMark raw ∧
    ∀ c ∈ raw, isBlank c = true

/-- what stands inside the root -/
structure IsBody (marks : List Mark) : Prop where
  nested : Nested marks
  opened : ∀ name fields, .opening name fields ∈ marks → name ∈ paired
  single : ∀ name fields, .single name fields ∈ marks → name ∉ paired

structure IsDocument (marks : List Mark) : Prop where
  root : ∃ prolog fields body, IsProlog prolog ∧ IsBody body ∧
    marks = prolog ++ .opening "svg".toList fields :: (body ++ [.closing "svg".toList])
  fields : ∀ mark ∈ marks, ∀ f ∈ mark.fields, '\x22' ∉ f.2 ∧ '<' ∉ f.2
  content : ∀ raw, .content raw ∈ marks → Clean raw

/-- a drawing whose tags are named, and whose groups are closed -/
structure Sound (d : Drawing) : Prop where
  named : ∀ p ∈ d, WellNamed p
  single : ∀ name attrs tail, .leaf name attrs tail ∈ d → name.toList ∉ paired
  nested : Nested (d.flatMap pieceMarks)

/-! ### the marks of a document -/

theorem mem_contentMark {raw : List Char} {mark : Mark} (h : mark ∈ contentMark raw) :
    mark = .content raw := by
  unfold contentMark at h
  split at h
  · exact absurd h List.not_mem_nil
  · exact List.mem_singleton.mp h

/-- the marks between the tags of the root: the style block, blanks, and the pieces of the
drawing -/
theorem mem_bodyMarks {layout : Layout} {styles : List String} {d : Drawing} {mark : Mark}
    (h : mark ∈ bodyMarks layout styles d) :
    mark = .opening "style".toList [] ∨ mark = .closing "style".toList ∨
      mark = .content (rulesText layout.pretty styles) ∨
      (∃ level, mark = .content (gap layout.pretty level)) ∨ ∃ p ∈ d, mark ∈ pieceMarks p := by
  rcases List.mem_append.mp h with h | h
  · rcases List.mem_append.mp h with h | h
    · unfold styleMarks at h
      split at h
      · exact absurd h List.not_mem_nil
      · simp only [List.mem_append, List.mem_cons, List.not_mem_nil, or_false] at h
        rcases h with h | h | h | h
        · exact .inr (.inr (.inr (.inl ⟨1, mem_contentMark h⟩)))
        · exact .inl h
        · exact .inr (.inr (.inl (mem_contentMark h)))
        · exact .inr (.inl h)
    · obtain ⟨l, hl, hmark⟩ := List.mem_flatMap.mp h
      rcases List.mem_append.mp hmark with hmark | hmark
      · exact .inr (.inr (.inr (.inl ⟨l.1, mem_contentMark hmark⟩)))
      · refine .inr (.inr (.inr (.inr ⟨l.2, ?_, hmark⟩)))
        rw [← map_snd_placed 1 d]
        exact List.mem_map_of_mem hl
  · exact .inr (.inr (.inr (.inl ⟨0, mem_contentMark h⟩)))

/-- the marks of a document: a prolog or none, the tags of the root, and what is between them -/
theorem mem_documentMarks {layout : Layout} {width height : Float} {styles : List String}
    {d : Drawing} {mark : Mark} (h : mark ∈ documentMarks layout width height styles d) :
    mark = .declaration declarationText ∨ mark = .content (gap layout.pretty 0) ∨
      mark = .opening "svg".toList
        (rootFields (tidy layout.places width).toList (tidy layout.places height).toList) ∨
      mark ∈ bodyMarks layout styles d ∨ mark = .closing "svg".toList := by
  simp only [documentMarks, List.mem_append, List.mem_cons, List.not_mem_nil, or_false] at h
  refine h.elim (fun hprolog => ?_) fun hroot => .inr (.inr hroot)
  unfold prologMarks at hprolog
  split at hprolog
  · exact (List.mem_cons.mp hprolog).imp_right fun hgap => .inl (mem_contentMark hgap)
  · exact absurd hprolog List.not_mem_nil

theorem nested_drawingMarks (pretty : Bool) (depth : Nat) {d : Drawing}
    (h : Nested (d.flatMap pieceMarks)) : Nested (drawingMarks pretty depth d) := by
  intro stack
  rw [drawingMarks, foldlM_nest_lines, map_snd_placed]
  exact h stack

theorem nested_styleMarks (pretty : Bool) (styles : List String) :
    Nested (styleMarks pretty styles) := by
  unfold styleMarks
  split
  · exact nested_nil
  · exact (nested_contentMark (gap pretty 1)).append
      ((nested_contentMark (rulesText pretty styles)).element "style".toList [])

theorem opened_of_mem_pieceMarks {p : Piece} {name : List Char} {fields : List Field}
    (h : .opening name fields ∈ pieceMarks p) : name ∈ paired := by
  cases p with
  | group attrs =>
    obtain ⟨rfl, -⟩ : name = ['g'] ∧ fields = attrs.map fieldOf := by simpa [pieceMarks] using h
    decide
  | groupEnd => simp [pieceMarks] at h
  | leaf name' attrs tail => simp [pieceMarks] at h
  | text attrs tail content =>
    simp only [pieceMarks, List.mem_cons, List.mem_append, List.not_mem_nil, or_false] at h
    rcases h with h | h | h
    · cases h
      decide
    · cases mem_contentMark h
    · cases h

theorem single_of_mem_pieceMarks {p : Piece} {name : List Char} {fields : List Field}
    (h : .single name fields ∈ pieceMarks p) :
    ∃ name' attrs tail, p = .leaf name' attrs tail ∧ name = name'.toList := by
  cases p with
  | group attrs => simp [pieceMarks] at h
  | groupEnd => simp [pieceMarks] at h
  | leaf name' attrs tail =>
    obtain ⟨rfl, -⟩ : name = name'.toList ∧ fields = attrs.map fieldOf := by
      simpa [pieceMarks] using h
    exact ⟨name', attrs, tail, rfl, rfl⟩
  | text attrs tail content =>
    simp only [pieceMarks, List.mem_cons, List.mem_append, List.not_mem_nil, or_false] at h
    rcases h with h | h | h
    · cases h
    · cases mem_contentMark h
    · cases h

theorem content_of_mem_pieceMarks {p : Piece} {raw : List Char}
    (h : .content raw ∈ pieceMarks p) : Clean raw := by
  cases p with
  | group attrs => simp [pieceMarks] at h
  | groupEnd => simp [pieceMarks] at h
  | leaf name attrs tail => simp [pieceMarks] at h
  | text attrs tail content =>
    simp only [pieceMarks, List.mem_cons, List.mem_append, List.not_mem_nil, or_false] at h
    rcases h with h | h | h
    · cases h
    · cases mem_contentMark h
      exact clean_escape content
    · cases h

theorem fields_of_mem_pieceMarks {p : Piece} {mark : Mark} (h : mark ∈ pieceMarks p) :
    ∀ f ∈ mark.fields, '\x22' ∉ f.2 ∧ '<' ∉ f.2 := by
  have hattrs : ∀ attrs : List Attr, ∀ f ∈ attrs.map fieldOf, '\x22' ∉ f.2 ∧ '<' ∉ f.2 := by
    intro attrs f hf
    obtain ⟨a, _, rfl⟩ := List.mem_map.mp hf
    rw [fieldOf_value]
    exact ⟨quote_not_mem_escape a.value, lt_not_mem_escape a.value⟩
  have hnone : ∀ f ∈ ([] : List Field), '\x22' ∉ f.2 ∧ '<' ∉ f.2 :=
    fun f hf => absurd hf List.not_mem_nil
  cases p with
  | group attrs =>
    obtain rfl := List.mem_singleton.mp h
    exact hattrs attrs
  | groupEnd =>
    obtain rfl := List.mem_singleton.mp h
    exact hnone
  | leaf name attrs tail =>
    obtain rfl := List.mem_singleton.mp h
    exact hattrs attrs
  | text attrs tail content =>
    simp only [pieceMarks, List.mem_cons, List.mem_append, List.not_mem_nil, or_false] at h
    rcases h with rfl | h | rfl
    · exact hattrs attrs
    · obtain rfl := mem_contentMark h
      exact hnone
    · exact hnone

/-! ### a document is one document -/

theorem clean_gap (pretty : Bool) (level : Nat) : Clean (gap pretty level) := by
  cases pretty with
  | false => exact clean_nil
  | true => exact clean_of_not_mem (by simp [gap]) (by simp [gap])

theorem clean_rulesText (pretty : Bool) {styles : List String}
    (h : ∀ s ∈ styles, '<' ∉ s.toList ∧ '&' ∉ s.toList) : Clean (rulesText pretty styles) := by
  have hgap : ∀ level, '<' ∉ gap pretty level ∧ '&' ∉ gap pretty level := by
    intro level
    cases pretty <;> simp [gap]
  refine clean_of_not_mem (fun hc => ?_) fun hc => ?_
  all_goals rcases mem_rulesText hc with ⟨level, hc⟩ | ⟨s, hs, hc⟩
  · exact (hgap level).1 hc
  · exact (h s hs).1 hc
  · exact (hgap level).2 hc
  · exact (h s hs).2 hc

theorem isProlog_prologMarks (layout : Layout) : IsProlog (prologMarks layout) := by
  unfold prologMarks
  split
  · refine .inr ⟨gap layout.pretty 0, rfl, fun c hc => ?_⟩
    unfold gap at hc
    split at hc
    · obtain rfl : c = '\n' := by simpa using hc
      rfl
    · exact absurd hc List.not_mem_nil
  · exact .inl rfl

theorem isBody_bodyMarks (layout : Layout) (styles : List String) {d : Drawing} (h : Sound d) :
    IsBody (bodyMarks layout styles d) where
  nested :=
    ((nested_styleMarks layout.pretty styles).append
      (nested_drawingMarks layout.pretty 1 h.nested)).append
      (nested_contentMark (gap layout.pretty 0))
  opened name fields hmark := by
    rcases mem_bodyMarks hmark with heq | heq | heq | ⟨level, heq⟩ | ⟨p, _, hp⟩
    · cases heq
      decide
    · cases heq
    · cases heq
    · cases heq
    · exact opened_of_mem_pieceMarks hp
  single name fields hmark := by
    rcases mem_bodyMarks hmark with heq | heq | heq | ⟨level, heq⟩ | ⟨p, hp, hpiece⟩
    · cases heq
    · cases heq
    · cases heq
    · cases heq
    · obtain ⟨name', attrs, tail, rfl, rfl⟩ := single_of_mem_pieceMarks hpiece
      exact h.single name' attrs tail hp

theorem fields_rootFields {w h : List Char} (hw : ∀ c ∈ w, numeral c = true)
    (hh : ∀ c ∈ h, numeral c = true) : ∀ f ∈ rootFields w h, '\x22' ∉ f.2 ∧ '<' ∉ f.2 := by
  have hno : ∀ cs : List Char, (∀ c ∈ cs, numeral c = true) → '\x22' ∉ cs ∧ '<' ∉ cs := by
    intro cs hcs
    exact ⟨fun hc => absurd (hcs _ hc) (by decide), fun hc => absurd (hcs _ hc) (by decide)⟩
  intro f hf
  simp only [rootFields, List.mem_cons, List.not_mem_nil, or_false] at hf
  rcases hf with rfl | rfl | rfl | rfl
  · decide
  · exact hno w hw
  · exact hno h hh
  · simp [hno w hw, hno h hh]

theorem isDocument_documentMarks (layout : Layout) (width height : Float) {styles : List String}
    {d : Drawing} (hstyles : ∀ s ∈ styles, '<' ∉ s.toList ∧ '&' ∉ s.toList) (hd : Sound d) :
    IsDocument (documentMarks layout width height styles d) := by
  have hroot := fields_rootFields (numeral_tidy layout.places width)
    (numeral_tidy layout.places height)
  refine ⟨⟨_, _, _, isProlog_prologMarks layout, isBody_bodyMarks layout styles hd, rfl⟩, ?_, ?_⟩
  · intro mark hmark f hf
    rcases mem_documentMarks hmark with rfl | rfl | rfl | hmark | rfl
    · exact absurd hf List.not_mem_nil
    · exact absurd hf List.not_mem_nil
    · exact hroot f hf
    · rcases mem_bodyMarks hmark with rfl | rfl | rfl | ⟨level, rfl⟩ | ⟨p, _, hp⟩
      · exact absurd hf List.not_mem_nil
      · exact absurd hf List.not_mem_nil
      · exact absurd hf List.not_mem_nil
      · exact absurd hf List.not_mem_nil
      · exact fields_of_mem_pieceMarks hp f hf
    · exact absurd hf List.not_mem_nil
  · intro raw hmark
    rcases mem_documentMarks hmark with heq | heq | heq | hmark | heq
    · cases heq
    · cases heq
      exact clean_gap layout.pretty 0
    · cases heq
    · rcases mem_bodyMarks hmark with heq | heq | heq | ⟨level, heq⟩ | ⟨p, _, hp⟩
      · cases heq
      · cases heq
      · cases heq
        exact clean_rulesText layout.pretty hstyles
      · cases heq
        exact clean_gap layout.pretty level
      · exact content_of_mem_pieceMarks hp
    · cases heq

theorem isDocument_document (layout : Layout) (width height : Float) {styles : List String}
    {d : Drawing} (hstyles : ∀ s ∈ styles, '<' ∉ s.toList ∧ '&' ∉ s.toList) (hd : Sound d) :
    ∃ marks, read? (document layout width height styles d) = some marks ∧ IsDocument marks :=
  ⟨documentMarks layout width height styles d,
    read_document layout width height (fun s hs => (hstyles s hs).1) hd.named,
    isDocument_documentMarks layout width height hstyles hd⟩

end Figures.Markup
