import Figures.Proofs.Blueprint.Attributes

/-!
# The ids of a picture

* `Markup.ids marks`          the ids in the tags of a document, as a reader has them
* `Drawing.ids d`             the ids in the tags of a drawing
* `ids_documentMarks`         a document has the ids of its drawing, in their order
* `ids_group`, `ids_text`, …  the ids of what a pen draws
* `Carries d keys loose`      the ids of a drawing are the loose ones and some of the keys
* `Carries.nodup_iff`         if the keys are apart, it depends on the loose ids alone whether all
                              ids are
-/

namespace Figures

open Markup

def Piece.ids (p : Piece) : List String := (p.attrs.filter fun a => a.name == "id").map Attr.value

def Drawing.ids (d : Drawing) : List String := d.flatMap Piece.ids

namespace Markup

/-- the ids in the tags of a document; a reader puts the characters back that entities stand for -/
def ids (marks : List Mark) : List (List Char) :=
  marks.flatMap fun mark => (mark.fields.filter fun f => f.1 == "id".toList).map fun f =>
    unescape f.2

theorem ids_append (a b : List Mark) : ids (a ++ b) = ids a ++ ids b := List.flatMap_append

theorem ids_flatMap {α : Type} (l : List α) (f : α → List Mark) :
    ids (l.flatMap f) = l.flatMap fun x => ids (f x) := List.flatMap_assoc

theorem ids_contentMark (raw : List Char) : ids (contentMark raw) = [] := by
  unfold contentMark
  split <;> rfl

theorem ids_fields (attrs : List Attr) :
    (((attrs.map fieldOf).filter fun f => f.1 == "id".toList).map fun f => unescape f.2)
      = ((attrs.filter fun a => a.name == "id").map Attr.value).map String.toList := by
  have hname : ∀ a : Attr, ((fieldOf a).1 == "id".toList) = (a.name == "id") := by
    intro a
    rw [Bool.eq_iff_iff, beq_iff_eq, beq_iff_eq]
    exact String.toList_inj
  induction attrs with
  | nil => rfl
  | cons a attrs ih =>
    rw [List.map_cons, List.filter_cons, List.filter_cons, hname]
    split
    · rw [List.map_cons, List.map_cons, List.map_cons, ih]
      exact congrArg₂ List.cons (unescape_escape a.value) rfl
    · exact ih

theorem ids_pieceMarks (p : Piece) : ids (pieceMarks p) = p.ids.map String.toList := by
  cases p with
  | group attrs => exact (List.append_nil _).trans (ids_fields attrs)
  | groupEnd => rfl
  | leaf name attrs tail => exact (List.append_nil _).trans (ids_fields attrs)
  | text attrs tail content =>
    have hmarks : pieceMarks (.text attrs tail content)
        = [.opening "text".toList (attrs.map fieldOf)] ++ contentMark (escape content).toList ++
            [.closing "text".toList] := rfl
    rw [hmarks, ids_append, ids_append, ids_contentMark, List.append_nil]
    exact (List.append_nil _).trans ((List.append_nil _).trans (ids_fields attrs))

theorem ids_drawingMarks (pretty : Bool) (depth : ℕ) (d : Drawing) :
    ids (drawingMarks pretty depth d) = d.ids.map String.toList := by
  have hline : ∀ l : ℕ × Piece, ids (lineMarks pretty l) = l.2.ids.map String.toList := by
    intro l
    rw [lineMarks, ids_append, ids_contentMark, ids_pieceMarks, List.nil_append]
  rw [drawingMarks, ids_flatMap, Drawing.ids, List.map_flatMap]
  simp only [hline]
  conv_rhs => rw [← map_snd_placed depth d, List.flatMap_map]

theorem ids_documentMarks (layout : Layout) (width height : Float) (styles : List String)
    (d : Drawing) :
    ids (documentMarks layout width height styles d) = d.ids.map String.toList := by
  have hprolog : ids (prologMarks layout) = [] := by
    unfold prologMarks
    split
    · exact ids_contentMark _
    · rfl
  have hroot : ∀ w h rest, ids (.opening "svg".toList (rootFields w h) :: rest) = ids rest :=
    fun w h rest => rfl
  have hstyle : ids (styleMarks layout.pretty styles) = [] := by
    unfold styleMarks
    split
    · rfl
    · have hopen : ∀ rest, ids (.opening "style".toList [] :: rest) = ids rest := fun rest => rfl
      rw [ids_append, hopen, ids_append, ids_contentMark, ids_contentMark]
      rfl
  rw [documentMarks, ids_append, hprolog, hroot, ids_append, bodyMarks, ids_append, ids_append,
    hstyle, ids_contentMark, ids_drawingMarks]
  simp [ids, Mark.fields]

end Markup

/-! ### what a pen draws -/

namespace Drawing

@[simp] theorem ids_nil : Drawing.ids [] = [] := rfl

@[simp] theorem ids_append (a b : Drawing) : Drawing.ids (a ++ b) = a.ids ++ b.ids :=
  List.flatMap_append

@[simp] theorem ids_flatMap {α : Type} (l : List α) (f : α → Drawing) :
    Drawing.ids (l.flatMap f) = l.flatMap fun x => (f x).ids := List.flatMap_assoc

@[simp] theorem ids_when (b : Bool) (d : Drawing) :
    (Drawing.when b d).ids = if b then d.ids else [] := by
  cases b <;> rfl

end Drawing

theorem Look.ids_identity (look : Look) :
    (look.identity.filter fun a => a.name == "id").map Attr.value = look.id.toList := by
  have hcls : ∀ cls : Option String,
      (cls.map (Attr.mk "class")).toList.filter (fun a => a.name == "id") = [] := by
    intro cls
    cases cls <;> rfl
  rw [identity, List.filter_append, hcls, List.append_nil]
  cases look.id <;> rfl

theorem Drawing.ids_of_attrs {p : Piece} {look : Look} {rest : List Attr}
    (hattrs : p.attrs = look.identity ++ rest) (hrest : ∀ a ∈ rest, a.name ≠ "id") :
    Drawing.ids [p] = look.id.toList := by
  have hnone : rest.filter (fun a => a.name == "id") = [] :=
    List.filter_eq_nil_iff.mpr fun a ha heq => hrest a ha (eq_of_beq heq)
  rw [Drawing.ids, List.flatMap_singleton, Piece.ids, hattrs, List.filter_append, hnone,
    List.append_nil, look.ids_identity]

theorem Drawing.ids_element {name : String} {look : Look} {geometry : List Attr}
    (hform : (name, geometry.map Attr.name) ∈ Element.forms)
      (hstyle : ∀ a ∈ look.style, a.name ≠ "id") :
    Drawing.ids [.element name look geometry] = look.id.toList := by
  refine ids_of_attrs (List.append_assoc _ _ _) fun a ha => ?_
  rcases List.mem_append.mp ha with ha | ha
  · intro hid
    have hapart := (Element.forms_apart _ hform).2.1 a.name (List.mem_map_of_mem ha)
    exact hapart (hid ▸ List.mem_cons_self)
  · exact hstyle a ha

theorem Drawing.ids_label {places : ℕ} {look : Look} {content : String} {at' : Point}
    {anchor : Anchor} (hstyle : ∀ a ∈ look.style, a.name ≠ "id") :
    Drawing.ids [.label places look content at' anchor] = look.id.toList := by
  refine ids_of_attrs (List.append_assoc _ _ _) fun a ha => ?_
  rcases List.mem_append.mp ha with ha | ha
  · intro hid
    have hform : a.name ∈ Element.labelForm := List.mem_map_of_mem (f := Attr.name) ha
    exact Element.labelForm_apart.2.1 a.name hform (hid ▸ List.mem_cons_self)
  · exact hstyle a ha

namespace Element

theorem id_append (e : Element) (p s : String) : e.id (p ++ s) = e.id p ++ s :=
  String.append_assoc.symm

theorem id_eq (e : Element) (s : String) : e.id s = e.id "" ++ s := by
  rw [← id_append, String.empty_append]

theorem id_inj {e : Element} {a b : String} : e.id a = e.id b ↔ a = b :=
  String.append_right_inj _

end Element

section
variable (places : ℕ) (e : Element) (name cls : String)

theorem plain_look {a : Attr} (h : a ∈ (e.look name cls).style) : a.name ≠ "id" :=
  absurd h List.not_mem_nil

@[simp] theorem ids_line (a b : Point) :
    Drawing.ids [.line places (e.look name cls) a b] = [e.id name] :=
  Drawing.ids_element (by simp [Piece.number, Element.forms]) fun _ => plain_look e name cls

@[simp] theorem ids_rect (corner : Point) (width height : Float) :
    Drawing.ids [.rect places (e.look name cls) corner width height] = [e.id name] :=
  Drawing.ids_element (by simp [Piece.number, Element.forms]) fun _ => plain_look e name cls

@[simp] theorem ids_circle (center : Point) (r : Float) :
    Drawing.ids [.circle places (e.look name cls) center r] = [e.id name] :=
  Drawing.ids_element (by simp [Piece.number, Element.forms]) fun _ => plain_look e name cls

@[simp] theorem ids_ellipse (center : Point) (rx ry : Float) :
    Drawing.ids [.ellipse places (e.look name cls) center rx ry] = [e.id name] :=
  Drawing.ids_element (by simp [Piece.number, Element.forms]) fun _ => plain_look e name cls

end

namespace Pen

variable (pen : Pen)

@[simp] theorem ids_group (name : String) (d : Drawing) :
    (Pen.group name d).ids = Element.group.id name :: d.ids := by
  simp [Pen.group, Pen.groupStart, Drawing.ids, Piece.ids, Piece.groupOf, Piece.attrs,
    Look.identity]

@[simp] theorem ids_dot (name : String) (p : Point) :
    (pen.dot name p).ids = [Element.point.id name] := ids_circle pen.places _ _ _ _ _

@[simp] theorem ids_rule (name : String) (a b : Point) (cls : String) :
    (pen.rule name a b cls).ids = [Element.line.id name] := ids_line pen.places _ _ _ _ _

@[simp] theorem ids_segment (name : String) (a b : Point) :
    (pen.segment name a b).ids = [Element.line.id name] := pen.ids_rule _ _ _ _

@[simp] theorem ids_hiddenSegment (name : String) (a b : Point) :
    (pen.hiddenSegment name a b).ids = [Element.line.id name] := pen.ids_rule _ _ _ _

@[simp] theorem ids_text (name content : String) (p : Point) (anchor : Anchor) (cls : String) :
    (pen.text name content p anchor cls).ids
      = if content.isEmpty then [] else [Element.text.id name] := by
  unfold Pen.text
  split
  · rfl
  · exact Drawing.ids_label fun _ => plain_look _ name cls

@[simp] theorem ids_label (name content : String) (p : Point) :
    (pen.label name content p).ids = if content.isEmpty then [] else [Element.text.id name] :=
  pen.ids_text _ _ _ _ _

@[simp] theorem ids_sideLabel (name content : String) (a b inside : Point) :
    (pen.sideLabel name content a b inside).ids
      = if content.isEmpty then [] else [Element.text.id name] := pen.ids_text _ _ _ _ _

@[simp] theorem ids_arcLabel (name content : String) (vertex : Point) (arc : AngleArc) :
    (pen.arcLabel name content vertex arc).ids
      = if content.isEmpty then [] else [Element.text.id name] := pen.ids_text _ _ _ _ _

@[simp] theorem ids_path (e : Element) (name : String) (p : Path) (cls : String) :
    (pen.path e name p cls).ids = [e.id name] :=
  Drawing.ids_element (by simp [Element.forms]) fun _ => plain_look e name cls

@[simp] theorem ids_polygon (e : Element) (name : String) (points : List Point) (cls : String) :
    (pen.polygon e name points cls).ids = [e.id name] :=
  Drawing.ids_element (by simp [Element.forms]) fun _ => plain_look e name cls

@[simp] theorem ids_arc (name : String) (arc : AngleArc) :
    (pen.arc name arc).ids = [Element.arc.id name] := pen.ids_path _ _ _ _

@[simp] theorem ids_rightAngle (name : String) (vertex p q : Point) (size : Float) :
    (pen.rightAngle name vertex p q size).ids = [Element.mark.id name] := pen.ids_path _ _ _ _

@[simp] theorem ids_equalTicks (name : String) (a b : Point) (count : ℕ) :
    (pen.equalTicks name a b count).ids = [Element.mark.id name] := pen.ids_path _ _ _ _

end Pen

/-! ### fixed and loose ids -/

/-- the ids of a drawing are the loose ones and some of the keys -/
def Drawing.Carries (d : Drawing) (keys loose : List String) : Prop :=
  ∃ fixed : List String, fixed.Sublist keys ∧ d.ids.Perm (fixed ++ loose)

namespace Drawing.Carries

variable {a b d : Drawing} {keys loose j k l m : List String}

/-- if no key occurs twice, and none among the loose ids, no id occurs twice unless a loose one
does -/
theorem nodup_iff (h : d.Carries keys loose) (hkeys : keys.Nodup) (hloose : ∀ s ∈ loose, s ∉ keys) :
    d.ids.Nodup ↔ loose.Nodup := by
  obtain ⟨fixed, hfixed, hperm⟩ := h
  rw [hperm.nodup_iff, List.nodup_append]
  refine ⟨fun h => h.2.1, fun h => ⟨hkeys.sublist hfixed, h, ?_⟩⟩
  rintro s hs _ ht rfl
  exact hloose s ht (hfixed.subset hs)

/-- without loose ids, the ids are some of the keys -/
theorem subperm (h : d.Carries keys []) : d.ids.Subperm keys := by
  obtain ⟨fixed, hfixed, hperm⟩ := h
  exact ⟨fixed, (List.append_nil fixed ▸ hperm).symm, hfixed⟩

/-- more keys may stand in the list than the drawing has -/
theorem weaken (h : d.Carries j loose) (hsub : j.Sublist keys) : d.Carries keys loose := by
  obtain ⟨fixed, hfixed, hperm⟩ := h
  exact ⟨fixed, hfixed.trans hsub, hperm⟩

theorem free (d : Drawing) : d.Carries [] d.ids := ⟨[], List.Sublist.refl _, List.Perm.refl _⟩

theorem fixed (h : d.ids = keys) : d.Carries keys [] :=
  ⟨keys, List.Sublist.refl _, by rw [h, List.append_nil]⟩

theorem optional {c : Prop} [Decidable c] (h : d.ids = if c then [] else keys) :
    d.Carries keys [] := by
  by_cases hc : c
  · exact ⟨[], List.nil_sublist keys, by rw [h, if_pos hc, List.append_nil]⟩
  · exact fixed (h.trans (if_neg hc))

theorem append (ha : a.Carries j l) (hb : b.Carries k m) :
    Drawing.Carries (a ++ b) (j ++ k) (l ++ m) := by
  obtain ⟨f, hf, hpermF⟩ := ha
  obtain ⟨g, hg, hpermG⟩ := hb
  refine ⟨f ++ g, hf.append hg, ?_⟩
  rw [Drawing.ids_append]
  calc (a.ids ++ b.ids).Perm ((f ++ l) ++ (g ++ m)) := hpermF.append hpermG
    _ = f ++ ((l ++ g) ++ m) := by simp only [List.append_assoc]
    (f ++ ((l ++ g) ++ m)).Perm (f ++ ((g ++ l) ++ m)) :=
      (List.perm_append_comm.append_right m).append_left f
    _ = (f ++ g) ++ (l ++ m) := by simp only [List.append_assoc]

/-- a drawing without loose ids adds keys only -/
theorem append_fixed (ha : a.Carries j l) (hb : b.Carries k []) :
    Drawing.Carries (a ++ b) (j ++ k) l := by
  have happend := ha.append hb
  rwa [List.append_nil] at happend

theorem fixed_append (ha : a.Carries j []) (hb : b.Carries k l) :
    Drawing.Carries (a ++ b) (j ++ k) l := ha.append hb

theorem when (h : d.Carries keys loose) (c : Bool) :
    (Drawing.when c d).Carries keys (if c then loose else []) := by
  cases c with
  | false => exact ⟨[], List.nil_sublist keys, List.Perm.refl _⟩
  | true => exact h

theorem maybe (h : d.Carries keys []) (c : Bool) : (Drawing.when c d).Carries keys [] := by
  have hwhen := h.when c
  rwa [ite_self] at hwhen

theorem ite (c : Prop) [Decidable c] (ha : a.Carries j l) (hb : b.Carries k m) :
    Drawing.Carries (if c then a else b) (j ++ k) (if c then l else m) := by
  split
  · obtain ⟨f, hf, hperm⟩ := ha
    exact ⟨f, hf.trans (List.sublist_append_left j k), hperm⟩
  · obtain ⟨f, hf, hperm⟩ := hb
    exact ⟨f, hf.trans (List.sublist_append_right j k), hperm⟩

theorem either (c : Prop) [Decidable c] (ha : a.Carries j []) (hb : b.Carries k []) :
    Drawing.Carries (if c then a else b) (j ++ k) [] := by
  have hite := ha.ite c hb
  rwa [ite_self] at hite

theorem group (h : d.Carries keys loose) (name : String) :
    (Pen.group name d).Carries (Element.group.id name :: keys) loose := by
  obtain ⟨f, hf, hperm⟩ := h
  refine ⟨Element.group.id name :: f, hf.cons_cons _, ?_⟩
  rw [Pen.ids_group]
  exact hperm.cons _

end Drawing.Carries

namespace Pen

open Drawing (Carries)

variable (pen : Pen)

theorem carries_dot (name : String) (p : Point) :
    (pen.dot name p).Carries [Element.point.id name] [] := .fixed (pen.ids_dot _ _)

theorem carries_rule (name : String) (a b : Point) (cls : String) :
    (pen.rule name a b cls).Carries [Element.line.id name] [] := .fixed (pen.ids_rule _ _ _ _)

theorem carries_segment (name : String) (a b : Point) :
    (pen.segment name a b).Carries [Element.line.id name] [] := .fixed (pen.ids_segment _ _ _)

theorem carries_hiddenSegment (name : String) (a b : Point) :
    (pen.hiddenSegment name a b).Carries [Element.line.id name] [] :=
  .fixed (pen.ids_hiddenSegment _ _ _)

theorem carries_text (name content : String) (p : Point) (anchor : Anchor) (cls : String) :
    (pen.text name content p anchor cls).Carries [Element.text.id name] [] :=
  .optional (pen.ids_text _ _ _ _ _)

theorem carries_label (name content : String) (p : Point) :
    (pen.label name content p).Carries [Element.text.id name] [] := .optional (pen.ids_label _ _ _)

theorem carries_sideLabel (name content : String) (a b inside : Point) :
    (pen.sideLabel name content a b inside).Carries [Element.text.id name] [] :=
  .optional (pen.ids_sideLabel _ _ _ _ _)

theorem carries_path (e : Element) (name : String) (p : Path) (cls : String) :
    (pen.path e name p cls).Carries [e.id name] [] := .fixed (pen.ids_path _ _ _ _)

theorem carries_polygon (e : Element) (name : String) (points : List Point) (cls : String) :
    (pen.polygon e name points cls).Carries [e.id name] [] := .fixed (pen.ids_polygon _ _ _ _)

theorem carries_arc (name : String) (arc : AngleArc) :
    (pen.arc name arc).Carries [Element.arc.id name] [] := .fixed (pen.ids_arc _ _)

theorem carries_rightAngle (name : String) (vertex p q : Point) (size : Float) :
    (pen.rightAngle name vertex p q size).Carries [Element.mark.id name] [] :=
  .fixed (pen.ids_rightAngle _ _ _ _ _)

theorem carries_equalTicks (name : String) (a b : Point) (count : ℕ) :
    (pen.equalTicks name a b count).Carries [Element.mark.id name] [] :=
  .fixed (pen.ids_equalTicks _ _ _ _)

end Pen

end Figures
