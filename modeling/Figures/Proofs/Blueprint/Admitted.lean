import Figures.Proofs.Blueprint.Attributes

/-!
# Nothing foreign in the markup of a blueprint

* `Style.Local`               every `url(` of a value, its letters in either case, refers into the
                              document
* `Style.local_of_objection?` the values that are written as styles are local
* `Markup.Mark.Admitted`      a known element, known attributes, local styles, content without
                              markup
* `Piece.Made.admitted`       the attributes of a piece are admitted if those of its style are
* `Blueprint.admitted_image`  the markup of a blueprint is admitted, mark by mark; up to the style
                              rules it does not depend on the shapes at all

The test for references is made on the value in lower case, the value itself is escaped and written.
The statement is about what a reader of the markup finds, so it speaks of the value unescaped again.
-/

namespace Figures

open Markup

/-! ### references -/

namespace Style

/-- what may stand between `url(` and its reference -/
def isPadding (c : Char) : Bool := isBlank c || c == '\x27' || c == '\x22'

/-- every `url(` of a value, its letters in either case, is followed by a reference into the
document, behind blanks and quotes -/
def Local (cs : List Char) : Prop :=
  ∀ before mark after, cs = before ++ mark ++ after → mark.map Char.toLower = "url(".toList →
    ∃ padding rest, after = padding ++ '#' :: rest ∧ ∀ c ∈ padding, isPadding c = true

theorem toLower_cases (c : Char) :
    c.toLower = c ∨ 65 ≤ c.toNat ∧ c.toNat ≤ 90 ∧ c.toLower.toNat = c.toNat + 32 := by
  unfold Char.toLower
  split
  · rename_i h
    have hbounds : 65 ≤ c.val.toNat ∧ c.val.toNat ≤ 90 := by
      simpa [UInt32.le_iff_toNat_le] using h
    have hsum : (c.val + ('a'.val - 'A'.val)).toNat = c.val.toNat + 32 := by
      rw [UInt32.toNat_add]
      exact Nat.mod_eq_of_lt (Nat.lt_of_le_of_lt (Nat.add_le_add_right hbounds.2 _) (by decide))
    exact .inr ⟨hbounds.1, hbounds.2, hsum⟩
  · exact .inl rfl

/-- blanks and quotes are no letters -/
theorem isPadding_toLower (c : Char) : isPadding c.toLower = isPadding c := by
  rcases toLower_cases c with h | ⟨hlow, hhigh, hlower⟩
  · rw [h]
  · have hno : ∀ d : Char, 65 ≤ d.toNat → d.toNat ≤ 122 → isPadding d = false := by
      intro d hd hd'
      have hquotes : d ≠ '\x27' ∧ d ≠ '\x22' := by
        constructor <;> rintro rfl <;> revert hd <;> decide
      simp only [isPadding, isBlank, Bool.or_eq_false_iff, Bool.and_eq_false_iff,
        decide_eq_false_iff_not, beq_eq_false_iff_ne]
      refine ⟨⟨?_, hquotes.1⟩, hquotes.2⟩
      omega
    rw [hno c (by omega) (by omega), hno c.toLower (by omega) (by omega)]

/-- nor is the sign of a reference -/
theorem eq_of_toLower_eq_hash {c : Char} (h : c.toLower = '#') : c = '#' := by
  rcases toLower_cases c with heq | ⟨hlow, -, hlower⟩
  · exact heq.symm.trans h
  · have hcode : c.toLower.toNat = 35 := h ▸ rfl
    omega

theorem padding_of_isLocal {cs : List Char} (h : isLocal (cs.map Char.toLower) = true) :
    ∃ padding rest, cs = padding ++ '#' :: rest ∧ ∀ c ∈ padding, isPadding c = true := by
  have hpadding : (isPadding ∘ Char.toLower) = isPadding := funext isPadding_toLower
  have hhead : ((cs.dropWhile isPadding).map Char.toLower).head? = some '#' := by
    have hdrop : (cs.map Char.toLower).dropWhile isPadding
        = (cs.dropWhile isPadding).map Char.toLower := by
      rw [List.dropWhile_map, hpadding]
    rw [← hdrop]
    exact eq_of_beq h
  obtain ⟨c, rest, hrest⟩ : ∃ c rest, cs.dropWhile isPadding = c :: rest := by
    cases hcs : cs.dropWhile isPadding with
    | nil => rw [hcs] at hhead; cases hhead
    | cons c rest => exact ⟨c, rest, rfl⟩
  have hc : c = '#' := by
    rw [hrest] at hhead
    exact eq_of_toLower_eq_hash (Option.some.inj hhead)
  refine ⟨cs.takeWhile isPadding, rest, ?_, fun d hd => List.all_eq_true.mp List.all_takeWhile d hd⟩
  rw [← hc, ← hrest, List.takeWhile_append_dropWhile]

theorem isLocal_of_localReferences {cs after : List Char} (before : List Char)
    (h : localReferences cs = true) (hcs : cs = before ++ ("url(".toList ++ after)) :
    isLocal after = true := by
  have hurl : "url(".toList = ['u', 'r', 'l', '('] := rfl
  induction before generalizing cs with
  | nil =>
    rw [hcs, hurl] at h
    have hfirst : (!("url(".toList).isPrefixOf ('u' :: 'r' :: 'l' :: '(' :: after)
        || isLocal after) = true := (Bool.and_eq_true_iff.mp h).1
    have hstart : ("url(".toList).isPrefixOf ('u' :: 'r' :: 'l' :: '(' :: after) = true := by
      rw [hurl, List.isPrefixOf_iff_prefix]
      exact List.prefix_append ['u', 'r', 'l', '('] after
    rwa [hstart, Bool.not_true, Bool.false_or] at hfirst
  | cons c before ih =>
    subst hcs
    exact ih (Bool.and_eq_true_iff.mp h).2 rfl

theorem local_of_localReferences {cs : List Char}
    (h : localReferences (cs.map Char.toLower) = true) : Local cs := by
  intro before mark after hcs hmark
  refine padding_of_isLocal (isLocal_of_localReferences (before.map Char.toLower) h ?_)
  rw [hcs, List.map_append, List.map_append, hmark, List.append_assoc]

theorem local_of_objection? {key value : String} (h : objection? key value = none) :
    Local value.toList := by
  unfold objection? at h
  split at h
  · cases h
  · split at h
    · cases h
    · rename_i href
      exact local_of_localReferences (by simpa using href)

end Style

/-! ### attributes, pieces and marks -/

def Element.known : List String :=
  ["svg", "style", "g", "line", "polyline", "polygon", "rect", "circle", "ellipse", "text", "path"]

/-- the attributes that elements have by themselves: those of the root, identity and geometry -/
def Attr.fixed : List String :=
  ["xmlns", "width", "height", "viewBox", "id", "class", "x", "y", "x1", "y1", "x2", "y2", "cx",
   "cy", "r", "rx", "ry", "points", "d", "text-anchor", "dominant-baseline"]

/-- a known attribute, which refers to nothing outside the document if it is a style -/
structure Attr.Admitted (a : Attr) : Prop where
  known : a.name ∈ fixed ++ Style.names
  reference : a.name ∈ Style.names → Style.Local a.value.toList

theorem Attr.admitted_of_objection? {a : Attr} (h : Style.objection? a.name a.value = none) :
    a.Admitted :=
  ⟨List.mem_append_right _ (Style.mem_names_of_objection? h), fun _ => Style.local_of_objection? h⟩

theorem Attr.admitted_of_not_mem {a : Attr} (h : a.name ∈ fixed) (hstyle : a.name ∉ Style.names) :
    a.Admitted :=
  ⟨List.mem_append_left _ h, fun hname => absurd hname hstyle⟩

namespace Piece

/-- a piece of a known element with such attributes -/
structure Admitted (p : Piece) : Prop where
  element : ∀ name attrs tail, p = .leaf name attrs tail → name ∈ Element.forms.map Prod.fst
  attrs : ∀ a ∈ p.attrs, a.Admitted

theorem admitted_identity (look : Look) : ∀ a ∈ look.identity, a.Admitted := by
  have hfixed : ∀ n ∈ ["id", "class"], n ∈ Attr.fixed ∧ n ∉ Style.names := by decide
  intro a ha
  obtain ⟨hname, hstyle⟩ := hfixed a.name (look.names_identity.subset (List.mem_map_of_mem ha))
  exact Attr.admitted_of_not_mem hname hstyle

theorem forms_known : ∀ form ∈ Element.forms,
    ∀ n ∈ form.2, n ∈ Attr.fixed ∧ n ∉ Style.names := by decide

theorem admitted_geometry {name : String} {geometry : List Attr}
    (form : (name, geometry.map Attr.name) ∈ Element.forms) : ∀ a ∈ geometry, a.Admitted := by
  intro a ha
  obtain ⟨hname, hstyle⟩ := forms_known _ form a.name (List.mem_map_of_mem ha)
  exact Attr.admitted_of_not_mem hname hstyle

/-- a label has two attributes that are styles as well; their values refer to nothing -/
theorem admitted_placement (places : Nat) (p : Point) (anchor : Anchor) :
    ∀ a ∈ [number places "x" p.x, number places "y" p.y, ⟨"text-anchor", anchor.name⟩,
      ⟨"dominant-baseline", "middle"⟩], a.Admitted := by
  intro a ha
  simp only [List.mem_cons, List.not_mem_nil, or_false] at ha
  rcases ha with rfl | rfl | rfl | rfl
  · exact Attr.admitted_of_not_mem (by decide : "x" ∈ _) (by decide : "x" ∉ _)
  · exact Attr.admitted_of_not_mem (by decide : "y" ∈ _) (by decide : "y" ∉ _)
  · refine Attr.admitted_of_objection? ?_
    cases anchor <;> decide
  · exact Attr.admitted_of_objection? (by decide)

theorem Made.admitted {S : List Attr → Prop} (hS : ∀ style, S style → ∀ a ∈ style, a.Admitted)
    {p : Piece} (h : p.Made S S) : p.Admitted := by
  have hstyle : ∀ {style : List Attr}, style = [] ∨ S style → ∀ a ∈ style, a.Admitted := by
    rintro style (rfl | hst)
    · exact fun a ha => absurd ha List.not_mem_nil
    · exact hS style hst
  have happend : ∀ {a b c : List Attr}, (∀ x ∈ a, x.Admitted) → (∀ x ∈ b, x.Admitted) →
      (∀ x ∈ c, x.Admitted) → ∀ x ∈ a ++ b ++ c, x.Admitted := by
    intro a b c ha hb hc x hx
    rcases List.mem_append.mp hx with hx | hx
    · exact (List.mem_append.mp hx).elim (ha x) (hb x)
    · exact hc x hx
  cases h with
  | start look => exact ⟨fun _ _ _ heq => Piece.noConfusion heq, admitted_identity look⟩
  | finish => exact ⟨fun _ _ _ heq => Piece.noConfusion heq, fun a ha => absurd ha List.not_mem_nil⟩
  | @element name look geometry form tail style =>
    refine ⟨fun name' attrs tail' heq => ?_,
      happend (admitted_identity look) (admitted_geometry form) (hstyle style)⟩
    cases heq
    exact List.mem_map_of_mem form
  | @label places look content at' anchor tail style =>
    exact ⟨fun _ _ _ heq => Piece.noConfusion heq,
      happend (admitted_identity look) (admitted_placement places at' anchor) (hstyle style)⟩

end Piece

namespace Markup

def Mark.element? : Mark → Option (List Char)
  | .opening name _ => some name
  | .single name _ => some name
  | .closing name => some name
  | _ => none

/-- a known attribute; if it is a style, what its value stands for refers to nothing outside -/
structure AdmittedField (f : Field) : Prop where
  known : f.1 ∈ (Attr.fixed ++ Style.names).map String.toList
  reference : f.1 ∈ Style.names.map String.toList → Style.Local (unescape f.2)

/-- the one declaration, a tag of a known element with such attributes, or content in which no tag
starts and every ampersand starts an entity -/
structure Mark.Admitted (mark : Mark) : Prop where
  element : ∀ name, mark.element? = some name → name ∈ Element.known.map String.toList
  fields : ∀ f ∈ mark.fields, AdmittedField f
  content : ∀ raw, mark = .content raw → Clean raw
  declaration : ∀ text, mark = .declaration text → text = declarationText

theorem admittedField_fieldOf {a : Attr} (h : a.Admitted) : AdmittedField (fieldOf a) where
  known := List.mem_map_of_mem h.known
  reference hname := by
    obtain ⟨n, hn, heq⟩ := List.mem_map.mp hname
    rw [fieldOf_value, unescape_escape]
    exact h.reference (String.toList_inj.mp heq ▸ hn)

theorem admittedField_map {attrs : List Attr} (h : ∀ a ∈ attrs, a.Admitted) :
    ∀ f ∈ attrs.map fieldOf, AdmittedField f := by
  intro f hf
  obtain ⟨a, ha, rfl⟩ := List.mem_map.mp hf
  exact admittedField_fieldOf (h a ha)

theorem admitted_tag (name : String) (hname : name ∈ Element.known) {mark : Mark}
    (helement : mark.element? = some name.toList) (hfields : ∀ f ∈ mark.fields, AdmittedField f) :
    mark.Admitted where
  element n hn := by
    obtain rfl := Option.some.inj (helement.symm.trans hn)
    exact List.mem_map_of_mem hname
  fields := hfields
  content raw hraw := by
    subst hraw
    cases helement
  declaration text htext := by
    subst htext
    cases helement

theorem admittedField_nil : ∀ f ∈ ([] : List Field), AdmittedField f :=
  fun _ hf => absurd hf List.not_mem_nil

theorem admitted_content {raw : List Char} (h : Clean raw) : (Mark.content raw).Admitted where
  element _ heq := by cases heq
  fields := admittedField_nil
  content _ heq := Mark.content.inj heq ▸ h
  declaration _ heq := Mark.noConfusion heq

theorem admitted_declaration : (Mark.declaration declarationText).Admitted where
  element _ heq := by cases heq
  fields := admittedField_nil
  content _ heq := Mark.noConfusion heq
  declaration _ heq := (Mark.declaration.inj heq).symm

theorem admitted_contentMark {raw : List Char} (h : Clean raw) :
    ∀ mark ∈ contentMark raw, mark.Admitted := by
  intro mark hmark
  rw [mem_contentMark hmark]
  exact admitted_content h

theorem forms_inner : ∀ name ∈ Element.forms.map Prod.fst,
    name ∈ Element.known ∧ name ≠ "svg" ∧ name ≠ "style" := by decide

theorem admitted_pieceMarks {p : Piece} (h : p.Admitted) :
    ∀ mark ∈ pieceMarks p, mark.Admitted := by
  intro mark hmark
  cases p with
  | group attrs =>
    obtain rfl := List.mem_singleton.mp hmark
    exact admitted_tag "g" (by decide) rfl (admittedField_map h.attrs)
  | groupEnd =>
    obtain rfl := List.mem_singleton.mp hmark
    exact admitted_tag "g" (by decide) rfl admittedField_nil
  | leaf name attrs tail =>
    obtain rfl := List.mem_singleton.mp hmark
    exact admitted_tag name (forms_inner name (h.element name attrs tail rfl)).1 rfl
      (admittedField_map h.attrs)
  | text attrs tail content =>
    simp only [pieceMarks, List.mem_cons, List.mem_append, List.not_mem_nil, or_false] at hmark
    rcases hmark with rfl | hmark | rfl
    · exact admitted_tag "text" (by decide) rfl (admittedField_map h.attrs)
    · exact admitted_contentMark (clean_escape content) mark hmark
    · exact admitted_tag "text" (by decide) rfl admittedField_nil

/-- a piece is neither a root nor a style block -/
theorem inner_pieceMarks {p : Piece} (h : p.Admitted) : ∀ mark ∈ pieceMarks p,
    mark.element? ≠ some "svg".toList ∧ mark.element? ≠ some "style".toList := by
  intro mark hmark
  cases p with
  | group attrs =>
    obtain rfl := List.mem_singleton.mp hmark
    exact ⟨by simp [Mark.element?], by simp [Mark.element?]⟩
  | groupEnd =>
    obtain rfl := List.mem_singleton.mp hmark
    exact ⟨by simp [Mark.element?], by simp [Mark.element?]⟩
  | leaf name attrs tail =>
    obtain rfl := List.mem_singleton.mp hmark
    obtain ⟨-, hsvg, hstyle⟩ := forms_inner name (h.element name attrs tail rfl)
    exact ⟨fun heq => hsvg (String.toList_inj.mp (Option.some.inj heq)),
      fun heq => hstyle (String.toList_inj.mp (Option.some.inj heq))⟩
  | text attrs tail content =>
    simp only [pieceMarks, List.mem_cons, List.mem_append, List.not_mem_nil, or_false] at hmark
    rcases hmark with rfl | hmark | rfl
    · exact ⟨by simp [Mark.element?], by simp [Mark.element?]⟩
    · rw [mem_contentMark hmark]
      exact ⟨by simp [Mark.element?], by simp [Mark.element?]⟩
    · exact ⟨by simp [Mark.element?], by simp [Mark.element?]⟩

/-! ### documents -/

def frontMarks (layout : Layout) (width height : Float) (styles : List String) : List Mark :=
  prologMarks layout ++
    .opening "svg".toList
      (rootFields (tidy layout.places width).toList (tidy layout.places height).toList) ::
    styleMarks layout.pretty styles

/-- the marks of a drawing inside a document, up to the end of the root -/
def innerMarks (layout : Layout) (d : Drawing) : List Mark :=
  drawingMarks layout.pretty 1 d ++ contentMark (gap layout.pretty 0)

theorem documentMarks_eq (layout : Layout) (width height : Float) (styles : List String)
    (d : Drawing) :
    documentMarks layout width height styles d
      = frontMarks layout width height styles ++ innerMarks layout d ++
        [.closing "svg".toList] := by
  simp [documentMarks, frontMarks, bodyMarks, innerMarks]

theorem admittedField_rootFields (w h : List Char) : ∀ f ∈ rootFields w h, AdmittedField f := by
  have hfixed : ∀ n ∈ ["xmlns".toList, "width".toList, "height".toList, "viewBox".toList],
      n ∈ (Attr.fixed ++ Style.names).map String.toList ∧ n ∉ Style.names.map String.toList := by
    decide
  intro f hf
  have hname : f.1 ∈ ["xmlns".toList, "width".toList, "height".toList, "viewBox".toList] :=
    List.mem_map_of_mem (f := Prod.fst) hf
  exact ⟨(hfixed f.1 hname).1, fun hstyle => absurd hstyle (hfixed f.1 hname).2⟩

theorem inner_innerMarks (layout : Layout) {d : Drawing} (h : ∀ p ∈ d, p.Admitted) :
    ∀ mark ∈ innerMarks layout d,
      mark.element? ≠ some "svg".toList ∧ mark.element? ≠ some "style".toList := by
  have hcontent : ∀ raw, ∀ mark ∈ contentMark raw,
      mark.element? ≠ some "svg".toList ∧ mark.element? ≠ some "style".toList := by
    intro raw mark hmark
    rw [mem_contentMark hmark]
    exact ⟨by simp [Mark.element?], by simp [Mark.element?]⟩
  intro mark hmark
  rcases List.mem_append.mp hmark with hmark | hmark
  · obtain ⟨l, hl, hmark⟩ := List.mem_flatMap.mp hmark
    rcases List.mem_append.mp hmark with hmark | hmark
    · exact hcontent _ mark hmark
    · refine inner_pieceMarks (h l.2 ?_) mark hmark
      rw [← map_snd_placed 1 d]
      exact List.mem_map_of_mem hl
  · exact hcontent _ mark hmark

theorem admitted_documentMarks (layout : Layout) (width height : Float) {styles : List String}
    {d : Drawing} (hstyles : ∀ s ∈ styles, '<' ∉ s.toList ∧ '&' ∉ s.toList)
    (hd : ∀ p ∈ d, p.Admitted) :
    ∀ mark ∈ documentMarks layout width height styles d, mark.Admitted := by
  intro mark hmark
  rcases mem_documentMarks hmark with rfl | rfl | rfl | hmark | rfl
  · exact admitted_declaration
  · exact admitted_content (clean_gap layout.pretty 0)
  · exact admitted_tag "svg" (by decide) rfl (admittedField_rootFields _ _)
  · rcases mem_bodyMarks hmark with rfl | rfl | rfl | ⟨level, rfl⟩ | ⟨p, hp, hpiece⟩
    · exact admitted_tag "style" (by decide) rfl admittedField_nil
    · exact admitted_tag "style" (by decide) rfl admittedField_nil
    · exact admitted_content (clean_rulesText layout.pretty hstyles)
    · exact admitted_content (clean_gap layout.pretty level)
    · exact admitted_pieceMarks (hd p hp) mark hpiece
  · exact admitted_tag "svg" (by decide) rfl admittedField_nil

end Markup

/-! ### blueprints -/

theorem Subject.admitted_kept (s : Subject) : ∀ a ∈ s.kept, a.Admitted := by
  intro a ha
  obtain ⟨m, hm, rfl⟩ := List.mem_map.mp ha
  exact Attr.admitted_of_objection? (Option.isNone_iff_eq_none.mp (List.mem_filter.mp hm).2)

namespace Blueprint

theorem admitted_root (b : Blueprint) (scope : Scope) (pen : Pen) :
    ∀ p ∈ Pen.group "blueprint" (b.scene scope pen).drawing, p.Admitted := fun p hp =>
  ((Drawn.group (b.drawn_scene_of (S := fun style => ∀ a ∈ style, a.Admitted) scope pen
    Subject.admitted_kept) "blueprint").made p hp).admitted fun _ h => h

/-- Whatever strings the layers and the shapes of a blueprint hold, and whatever its formulas give:
the markup of its image is read as known elements with known attributes, the styles among them refer
to nothing outside the document, and the content is no markup. The marks up to the drawing depend on
the context and the size only, and the drawing holds neither a root nor a style block. -/
theorem admitted_image (b : Blueprint) (scope : Scope) (ctx : Context)
    (hplain : ctx.palette.Plain) :
    ∃ marks, read? (b.image scope ctx).svg = some marks ∧ (∀ mark ∈ marks, mark.Admitted) ∧
      ∃ inner,
        marks = frontMarks ctx.layout b.viewBox.width b.viewBox.height [ctx.palette.styleBlock]
          ++ inner ++ [.closing "svg".toList] ∧
        ∀ mark ∈ inner,
          mark.element? ≠ some "svg".toList ∧ mark.element? ≠ some "style".toList := by
  have hroot := b.admitted_root scope (Pen.of ctx)
  have hblock := Palette.plain_styleBlock hplain
  refine ⟨_, read_image scope hplain, admitted_documentMarks _ _ _ (fun rules hrules => ?_) hroot,
    _, documentMarks_eq _ _ _ _ _, inner_innerMarks ctx.layout hroot⟩
  obtain rfl := List.mem_singleton.mp hrules
  exact ⟨hblock.not_mem rfl, hblock.not_mem rfl⟩

/-- a shape that tries to leave its quotes, to carry a handler and to refer to another place -/
def hostile : Blueprint :=
  ⟨1, ⟨100, 100⟩, [⟨"\x22><script>", 0, [⟨"\x22/><script>", "text", Dict.ofList
    [("at", .object [("x", .integer 1), ("y", .integer 2)]), ("text", .text "</text><script>"),
     ("style", .object [("onload", .text "alert(1)"), ("fill", .text "URL( https://elsewhere)"),
       ("stroke\x22 onload=\x22", .text "red"), ("stroke", .text "\x22/><script>")])]⟩]⟩]⟩

theorem admitted_image_hostile :
    ({} : Context).palette.Plain ∧
    ∃ marks, read? (hostile.image ⟨.null⟩ {}).svg = some marks ∧ (∀ mark ∈ marks, mark.Admitted) ∧
      ∃ inner,
        marks = frontMarks ({} : Context).layout 100 100 [({} : Context).palette.styleBlock]
          ++ inner ++ [.closing "svg".toList] ∧
        ∀ mark ∈ inner,
          mark.element? ≠ some "svg".toList ∧ mark.element? ≠ some "style".toList :=
  ⟨Palette.plain_standard, hostile.admitted_image ⟨.null⟩ {} Palette.plain_standard⟩

end Blueprint

end Figures
