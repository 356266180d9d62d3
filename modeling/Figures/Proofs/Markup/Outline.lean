import Figures.Proofs.Markup.Nesting

/-!
# Documents and their outlines

* `Outline`              the elements of a drawing: each group with what stands in it, and what
                         follows
* `Outline.drawing`      its pieces, one after the other
* `Outline.lines`        their markup, each with the number of elements around it
* `levels_drawing`       these numbers are the levels of the drawing
* `exists_outline`       a drawing that closes its groups has an outline
* `Draft`                a document before it is laid out: its root, its rules, its elements
* `document_eq_text`     both layouts of a document are written from one draft

The level of a line is counted up and down while the drawing is written. It is the number of
elements around the line as long as every group is closed.
-/

namespace Figures.Markup

/-- elements, one after the other, each group with the elements that stand in it -/
inductive Outline where
  | nil
  | leaf (name : String) (attrs : List Attr) (tail : String) (rest : Outline)
  | text (attrs : List Attr) (tail content : String) (rest : Outline)
  | group (attrs : List Attr) (content rest : Outline)

namespace Outline

def drawing : Outline → Drawing
  | nil => []
  | leaf name attrs tail rest => .leaf name attrs tail :: rest.drawing
  | text attrs tail content rest => .text attrs tail content :: rest.drawing
  | group attrs content rest => .group attrs :: (content.drawing ++ .groupEnd :: rest.drawing)

/-- the markup of an outline that stands inside `depth` elements: every tag and every whole element
with the number of elements around it -/
def lines (depth : Nat) : Outline → List (Nat × String)
  | nil => []
  | leaf name attrs tail rest => (depth, pieceText (.leaf name attrs tail)) :: rest.lines depth
  | text attrs tail content rest =>
    (depth, pieceText (.text attrs tail content)) :: rest.lines depth
  | group attrs content rest =>
    (depth, pieceText (.group attrs)) ::
      (content.lines (depth + 1) ++ (depth, pieceText .groupEnd) :: rest.lines depth)

end Outline

theorem levels_drawing_append (o : Outline) (depth : Nat) (d : Drawing) :
    levels depth (o.drawing ++ d) = o.lines depth ++ levels depth d := by
  induction o generalizing depth d with
  | nil => rfl
  | leaf name attrs tail rest ih =>
    show (depth, _) :: levels depth (rest.drawing ++ d) = _
    rw [ih]
    rfl
  | text attrs tail content rest ih =>
    show (depth, _) :: levels depth (rest.drawing ++ d) = _
    rw [ih]
    rfl
  | group attrs content rest ihcontent ihrest =>
    have hpieces : (Outline.group attrs content rest).drawing ++ d
        = .group attrs :: (content.drawing ++ .groupEnd :: (rest.drawing ++ d)) := by
      simp [Outline.drawing]
    rw [hpieces]
    show (depth, _) :: levels (depth + 1) (content.drawing ++ .groupEnd :: (rest.drawing ++ d)) = _
    rw [ihcontent]
    show (depth, _) :: (content.lines (depth + 1) ++
      (depth, _) :: levels depth (rest.drawing ++ d)) = _
    rw [ihrest]
    simp [Outline.lines]

theorem levels_drawing (o : Outline) (depth : Nat) : levels depth o.drawing = o.lines depth := by
  have h := levels_drawing_append o depth []
  rwa [List.append_nil, levels, List.append_nil] at h

/-- a drawing inside `n` open groups closes them one by one, with an outline in front of each end -/
theorem exists_outlines {d : Drawing} {n : Nat}
    (h : (d.flatMap pieceMarks).foldlM nest (List.replicate n ['g']) = some []) :
    ∃ (o : Outline) (os : List Outline), os.length = n ∧
      d = o.drawing ++ os.flatMap fun o => .groupEnd :: o.drawing := by
  induction d generalizing n with
  | nil =>
    have hnone : List.replicate n ['g'] = [] := Option.some.inj h
    obtain rfl : n = 0 := by simpa using hnone
    exact ⟨.nil, [], rfl, rfl⟩
  | cons p d ih =>
    rw [List.flatMap_cons, List.foldlM_append] at h
    obtain ⟨mid, hmid, hrest⟩ := Option.bind_eq_some_iff.mp h
    cases p with
    | group attrs =>
      have hopen : List.replicate (n + 1) ['g'] = mid := Option.some.inj hmid
      obtain ⟨o, os, hlength, rfl⟩ := ih (hopen ▸ hrest)
      cases os with
      | nil => exact absurd hlength nofun
      | cons next os =>
        refine ⟨.group attrs o next, os, Nat.succ.inj hlength, ?_⟩
        simp [Outline.drawing]
    | groupEnd =>
      cases n with
      | zero => exact absurd hmid nofun
      | succ n =>
        have hclose : List.replicate n ['g'] = mid := Option.some.inj hmid
        obtain ⟨o, os, hlength, rfl⟩ := ih (hclose ▸ hrest)
        exact ⟨.nil, o :: os, congrArg Nat.succ hlength, rfl⟩
    | leaf name attrs tail =>
      have hsame : List.replicate n ['g'] = mid := Option.some.inj hmid
      obtain ⟨o, os, hlength, rfl⟩ := ih (hsame ▸ hrest)
      exact ⟨.leaf name attrs tail o, os, hlength, rfl⟩
    | text attrs tail content =>
      have hmarks := (nested_contentMark (escape content).toList).element "text".toList
        (attrs.map fieldOf) (List.replicate n ['g'])
      have hsame : List.replicate n ['g'] = mid := Option.some.inj (hmarks.symm.trans hmid)
      obtain ⟨o, os, hlength, rfl⟩ := ih (hsame ▸ hrest)
      exact ⟨.text attrs tail content o, os, hlength, rfl⟩

theorem exists_outline {d : Drawing} (h : Nested (d.flatMap pieceMarks)) :
    ∃ o : Outline, o.drawing = d := by
  obtain ⟨o, os, hlength, hd⟩ := exists_outlines (h (List.replicate 0 ['g']))
  obtain rfl := List.length_eq_zero_iff.mp hlength
  exact ⟨o, by rw [hd, List.flatMap_nil, List.append_nil]⟩

/-! ### the two layouts -/

/-- a document before it is laid out: the start tag of its root, the rules of its style block, and
the elements in its root -/
structure Draft where
  root : String
  rules : List String
  elements : Outline

namespace Draft

def compact (t : Draft) : String :=
  t.root ++ "<style>" ++ String.join t.rules ++ "</style>" ++
    String.join ((t.elements.lines 1).map fun l => l.2) ++ "</svg>"

/-- everything on lines of its own, each behind two blanks for every element around it -/
def pretty (t : Draft) : String :=
  t.root ++ "\n  <style>\n" ++ String.join (t.rules.map fun rule => "    " ++ rule ++ "\n") ++
    "  </style>\n" ++
    String.join ((t.elements.lines 1).map fun l => margin l.1 ++ l.2 ++ "\n") ++ "</svg>"

/-- the document in one of the layouts, behind the declaration or not -/
def text (t : Draft) (standalone pretty : Bool) : String :=
  if pretty then (if standalone then declaration ++ "\n" else "") ++ t.pretty
  else (if standalone then declaration else "") ++ t.compact

end Draft

theorem intercalate_append_singleton (last : String) (lines : List String) :
    "\n".intercalate (lines ++ [last]) = String.join (lines.map (· ++ "\n")) ++ last := by
  induction lines with
  | nil => simp
  | cons line lines ih =>
    cases lines with
    | nil => simp
    | cons next lines =>
      have hjoin : "\n".intercalate (line :: next :: lines ++ [last])
          = line ++ "\n" ++ "\n".intercalate (next :: lines ++ [last]) :=
        String.intercalate_cons_cons
      rw [hjoin, ih]
      simp [String.append_assoc]

theorem joinLines_pretty (last : String) (lines : List (Nat × String)) :
    joinLines true (lines ++ [(0, last)])
      = String.join (lines.map fun l => margin l.1 ++ l.2 ++ "\n") ++ last := by
  have hmargin : margin 0 = "" := rfl
  show "\n".intercalate ((lines ++ [(0, last)]).map fun l : Nat × String => margin l.1 ++ l.2) = _
  rw [List.map_append, List.map_singleton, intercalate_append_singleton, List.map_map, hmargin,
    String.empty_append]
  rfl

theorem documentLines_eq_append (layout : Layout) (width height : Float) (style : String)
    (d : Drawing) :
    documentLines layout width height [style] d
      = ((if layout.standalone then [(0, declaration)] else []) ++
          (0, rootStart (tidy layout.places width) (tidy layout.places height)) ::
          (1, "<style>") :: ((Text.lines style).map fun rule => (2, rule)) ++
          (1, "</style>") :: levels 1 d) ++ [(0, "</svg>")] := by
  simp [documentLines_eq, styleLines]

theorem document_eq_text (layout : Layout) (width height : Float) (style : String) (o : Outline) :
    document layout width height [style] o.drawing
      = Draft.text
          ⟨rootStart (tidy layout.places width) (tidy layout.places height), Text.lines style, o⟩
          layout.standalone layout.pretty := by
  have hone : margin 1 = "  " := rfl
  have htwo : margin 2 = "    " := rfl
  have hzero : margin 0 = "" := rfl
  have hstyle : ∀ x, "\n" ++ ("  <style>\n" ++ x) = "\n  <style>\n" ++ x :=
    fun _ => String.append_assoc.symm
  rw [document, documentLines_eq_append, levels_drawing]
  cases hpretty : layout.pretty with
  | false =>
    cases hstandalone : layout.standalone <;>
      simp [joinLines, Draft.text, Draft.compact, List.map_map, Function.comp_def,
        String.append_assoc]
  | true =>
    rw [joinLines_pretty]
    cases hstandalone : layout.standalone <;>
      simp [Draft.text, Draft.pretty, List.map_map, Function.comp_def, String.append_assoc, hzero,
        hone, htwo, hstyle]

theorem document_ne_empty (layout : Layout) (width height : Float) (styles : List String)
    (d : Drawing) : document layout width height styles d ≠ "" := by
  have hroot : ∀ w h, (rootStart w h).toList ≠ [] := by
    intro w h
    rw [toList_rootStart]
    exact List.cons_ne_nil _ _
  have hdeclaration : declaration.toList ≠ [] := by decide
  intro hempty
  have hchars := congrArg String.toList hempty
  rw [document, documentLines_eq] at hchars
  cases hstandalone : layout.standalone with
  | false =>
    rw [hstandalone, if_neg Bool.false_ne_true, List.nil_append, toList_joinLines] at hchars
    exact hroot _ _ (List.append_eq_nil_iff.mp hchars).1
  | true =>
    rw [hstandalone, if_pos rfl, List.singleton_append, toList_joinLines] at hchars
    exact hdeclaration (List.append_eq_nil_iff.mp hchars).1

end Figures.Markup
