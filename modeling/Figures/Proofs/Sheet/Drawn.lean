import Figures.Proofs.Markup.Nesting
import Figures.Sheet.Pen

/-!
# What drawings are made of

* `Element.forms`       the elements of drawings with the attributes of their geometry
* `Piece.Made S L`      a piece that is a group tag, an element or a label; the styles of elements
                        that have any satisfy `S`, those of labels `L`
* `Drawn S L d`         a drawing of such pieces, with its groups closed
* `Drawn.append`, …     what is put together from such drawings is one
* `drawn_text`, …       what a pen draws is one
* `Drawn.sound`         such a drawing can be put into a document

Every figure and every shape of a blueprint is put together this way.
-/

namespace Figures

open Markup

/-- the elements of drawings with the attributes of their geometry -/
def Element.forms : List (String × List String) :=
  [("line", ["x1", "y1", "x2", "y2"]), ("rect", ["x", "y", "width", "height"]),
   ("circle", ["cx", "cy", "r"]), ("ellipse", ["cx", "cy", "rx", "ry"]), ("polygon", ["points"]),
   ("polyline", ["points"]), ("path", ["d"])]

/-- the attributes of a label between its identity and its style -/
def Element.labelForm : List String := ["x", "y", "text-anchor", "dominant-baseline"]

/-- a piece as drawings have it -/
inductive Piece.Made (S L : List Attr → Prop) : Piece → Prop
  | start (look : Look) : Made S L (.groupOf look)
  | finish : Made S L .groupEnd
  | element {name : String} {look : Look} {geometry : List Attr}
      (form : (name, geometry.map Attr.name) ∈ Element.forms) (tail : look.tail = "")
      (style : look.style = [] ∨ S look.style) : Made S L (.element name look geometry)
  | label {places : Nat} {look : Look} {content : String} {at' : Point} {anchor : Anchor}
      (tail : look.tail = "") (style : look.style = [] ∨ L look.style) :
      Made S L (.label places look content at' anchor)

/-- a drawing of such pieces, with its groups closed -/
structure Drawn (S L : List Attr → Prop) (d : Drawing) : Prop where
  made : ∀ p ∈ d, p.Made S L
  nested : Nested (d.flatMap pieceMarks)

section
variable {S L : List Attr → Prop}

/-! ### putting together -/

@[simp] theorem drawn_nil : Drawn S L [] := ⟨fun _ hp => absurd hp List.not_mem_nil, nested_nil⟩

@[simp] theorem Drawn.append {a b : Drawing} (ha : Drawn S L a) (hb : Drawn S L b) :
    Drawn S L (a ++ b) where
  made p hp := (List.mem_append.mp hp).elim (ha.made p) (hb.made p)
  nested := by
    rw [List.flatMap_append]
    exact ha.nested.append hb.nested

@[simp] theorem Drawn.flatMap {α : Type} {l : List α} {f : α → Drawing}
    (h : ∀ x ∈ l, Drawn S L (f x)) : Drawn S L (l.flatMap f) where
  made p hp := by
    obtain ⟨x, hx, hpx⟩ := List.mem_flatMap.mp hp
    exact (h x hx).made p hpx
  nested := by
    rw [List.flatMap_assoc]
    exact Nested.flatMap fun x hx => (h x hx).nested

theorem Drawn.map {α : Type} {l : List α} {f : α → Piece} (h : ∀ x ∈ l, Drawn S L [f x]) :
    Drawn S L (l.map f) := by
  rw [List.map_eq_flatMap]
  exact .flatMap h

@[simp] theorem Drawn.when {d : Drawing} (h : Drawn S L d) (b : Bool) : Drawn S L (d.when b) := by
  cases b with
  | false => exact drawn_nil
  | true => exact h

@[simp] theorem Drawn.ite {a b : Drawing} (c : Prop) [Decidable c] (ha : Drawn S L a)
    (hb : Drawn S L b) : Drawn S L (if c then a else b) := by
  split
  · exact ha
  · exact hb

@[simp] theorem Drawn.group {d : Drawing} (h : Drawn S L d) (name : String) :
    Drawn S L (Pen.group name d) where
  made p hp := by
    simp only [Pen.group, List.mem_cons, List.mem_append, List.not_mem_nil, or_false] at hp
    rcases hp with (rfl | hp) | rfl
    · exact .start _
    · exact h.made p hp
    · exact .finish
  nested := by
    have hmarks : (Pen.group name d).flatMap pieceMarks
        = .opening ['g'] ((Look.identity { id := some (Element.group.id name) }).map fieldOf) ::
            (d.flatMap pieceMarks ++ [.closing ['g']]) := by
      simp [Pen.group, Pen.groupStart, Piece.groupOf, pieceMarks]
    rw [hmarks]
    exact h.nested.element ['g'] _

theorem Drawn.mono {S' L' : List Attr → Prop} {d : Drawing} (h : Drawn S L d)
    (hS : ∀ style, S style → S' style) (hL : ∀ style, L style → L' style) : Drawn S' L' d where
  made p hp := by
    cases h.made p hp with
    | start look => exact .start look
    | finish => exact .finish
    | element form tail style => exact .element form tail (style.imp_right (hS _))
    | label tail style => exact .label tail (style.imp_right (hL _))
  nested := h.nested

/-! ### single pieces -/

theorem drawn_element {name : String} {look : Look} {geometry : List Attr}
    (form : (name, geometry.map Attr.name) ∈ Element.forms) (tail : look.tail = "")
    (style : look.style = [] ∨ S look.style) : Drawn S L [.element name look geometry] where
  made p hp := by
    obtain rfl := List.mem_singleton.mp hp
    exact .element form tail style
  nested _ := rfl

theorem drawn_label {places : Nat} {look : Look} {content : String} {at' : Point} {anchor : Anchor}
    (tail : look.tail = "") (style : look.style = [] ∨ L look.style) :
    Drawn S L [.label places look content at' anchor] where
  made p hp := by
    obtain rfl := List.mem_singleton.mp hp
    exact .label tail style
  nested := by
    rw [List.flatMap_singleton]
    exact (nested_contentMark _).element "text".toList _

section
variable (places : Nat) {look : Look} (tail : look.tail = "")
    (style : look.style = [] ∨ S look.style)
include tail style

theorem drawn_line (a b : Point) : Drawn S L [.line places look a b] :=
  drawn_element (by simp [Piece.number, Element.forms]) tail style

theorem drawn_rect (corner : Point) (width height : Float) :
    Drawn S L [.rect places look corner width height] :=
  drawn_element (by simp [Piece.number, Element.forms]) tail style

theorem drawn_circle (center : Point) (r : Float) : Drawn S L [.circle places look center r] :=
  drawn_element (by simp [Piece.number, Element.forms]) tail style

theorem drawn_ellipse (center : Point) (rx ry : Float) :
    Drawn S L [.ellipse places look center rx ry] :=
  drawn_element (by simp [Piece.number, Element.forms]) tail style

theorem drawn_polygon (points : List Point) : Drawn S L [.polygon places look points] :=
  drawn_element (by simp [Element.forms]) tail style

theorem drawn_polyline (points : List Point) : Drawn S L [.polyline places look points] :=
  drawn_element (by simp [Element.forms]) tail style

theorem drawn_path (p : Path) : Drawn S L [.path places look p] :=
  drawn_element (by simp [Element.forms]) tail style

end

/-! ### pens -/

namespace Pen

variable (pen : Pen)

@[simp] theorem drawn_dot (name : String) (p : Point) : Drawn S L (pen.dot name p) :=
  drawn_circle pen.places rfl (.inl rfl) p pen.pointRadius

@[simp] theorem drawn_rule (name : String) (a b : Point) (cls : String) :
    Drawn S L (pen.rule name a b cls) := drawn_line pen.places rfl (.inl rfl) a b

@[simp] theorem drawn_segment (name : String) (a b : Point) : Drawn S L (pen.segment name a b) :=
  pen.drawn_rule name a b Cls.line

@[simp] theorem drawn_hiddenSegment (name : String) (a b : Point) :
    Drawn S L (pen.hiddenSegment name a b) := pen.drawn_rule name a b Cls.hiddenLine

@[simp] theorem drawn_text (name content : String) (p : Point) (anchor : Anchor) (cls : String) :
    Drawn S L (pen.text name content p anchor cls) := by
  unfold Pen.text
  split
  · exact drawn_nil
  · exact drawn_label rfl (.inl rfl)

@[simp] theorem drawn_label (name content : String) (p : Point) :
    Drawn S L (pen.label name content p) := pen.drawn_text name content p .middle Cls.text

@[simp] theorem drawn_sideLabel (name content : String) (a b inside : Point) :
    Drawn S L (pen.sideLabel name content a b inside) :=
  pen.drawn_text name content _ .middle Cls.sideText

@[simp] theorem drawn_arc (name : String) (arc : AngleArc) : Drawn S L (pen.arc name arc) :=
  drawn_path pen.places rfl (.inl rfl) arc.path

@[simp] theorem drawn_arcLabel (name content : String) (vertex : Point) (arc : AngleArc) :
    Drawn S L (pen.arcLabel name content vertex arc) :=
  pen.drawn_text name content _ .middle Cls.angleText

@[simp] theorem drawn_rightAngle (name : String) (vertex p q : Point) (size : Float) :
    Drawn S L (pen.rightAngle name vertex p q size) := drawn_path pen.places rfl (.inl rfl) _

@[simp] theorem drawn_equalTicks (name : String) (a b : Point) (count : Nat) :
    Drawn S L (pen.equalTicks name a b count) := drawn_path pen.places rfl (.inl rfl) _

@[simp] theorem drawn_polygon (e : Element) (name : String) (points : List Point) (cls : String) :
    Drawn S L (pen.polygon e name points cls) :=
      Figures.drawn_polygon pen.places rfl (.inl rfl) points

@[simp] theorem drawn_path (e : Element) (name : String) (p : Path) (cls : String) :
    Drawn S L (pen.path e name p cls) := Figures.drawn_path pen.places rfl (.inl rfl) p

end Pen

/-! ### names -/

/-- the attributes before the geometry are an id, a class, both or none -/
theorem Look.names_identity (look : Look) :
    (look.identity.map Attr.name).Sublist ["id", "class"] := by
  have hopt : ∀ (name : String) (o : Option String),
      (o.map (Attr.mk name)).toList.map Attr.name = [] ∨
        (o.map (Attr.mk name)).toList.map Attr.name = [name] := by
    intro name o
    cases o with
    | none => exact .inl rfl
    | some value => exact .inr rfl
  rw [identity, List.map_append]
  rcases hopt "id" look.id with hid | hid <;>
    rcases hopt "class" (look.cls.filter fun c => !c.isEmpty) with hcls | hcls <;>
    rw [hid, hcls] <;> decide

theorem Look.named_identity (look : Look) : Named look.identity := by
  intro a ha
  have hmem := look.names_identity.subset (List.mem_map_of_mem ha)
  simp only [List.mem_cons, List.not_mem_nil, or_false] at hmem
  rcases hmem with h | h <;> rw [h] <;> decide

theorem named_append {a b : List Attr} (ha : Named a) (hb : Named b) : Named (a ++ b) :=
  fun x hx => (List.mem_append.mp hx).elim (ha x) (hb x)

theorem named_of_names {attrs : List Attr} (names : List String)
    (h : attrs.map Attr.name = names) (hnames : ∀ n ∈ names, isName n.toList = true) :
    Named attrs := fun _ ha => hnames _ (h ▸ List.mem_map_of_mem ha)

/-- the tables name elements and attributes, and no element among them has an end tag -/
theorem Element.forms_named : ∀ form ∈ Element.forms,
    isName form.1.toList = true ∧ form.1.toList ∉ paired ∧
      ∀ n ∈ form.2, isName n.toList = true := by decide

/-- what stands in the tags of a drawing, if its styles have names -/
theorem Piece.Made.wellNamed (hS : ∀ style, S style → Named style)
    (hL : ∀ style, L style → Named style) {p : Piece} (h : p.Made S L) : WellNamed p := by
  have hstyle : ∀ {Q : List Attr → Prop} {style : List Attr}, (∀ st, Q st → Named st) →
      style = [] ∨ Q style → Named style := by
    intro Q style hQ hst
    rcases hst with rfl | hst
    · exact fun a ha => absurd ha List.not_mem_nil
    · exact hQ style hst
  cases h with
  | start look => exact look.named_identity
  | finish => trivial
  | @element name look geometry form tail style =>
    obtain ⟨hname, -, hgeometry⟩ := Element.forms_named _ form
    exact ⟨hname, named_append (named_append look.named_identity (named_of_names _ rfl hgeometry))
      (hstyle hS style), tail⟩
  | @label places look content at' anchor tail style =>
    have hform : Named [Piece.number places "x" at'.x, Piece.number places "y" at'.y,
        ⟨"text-anchor", anchor.name⟩, ⟨"dominant-baseline", "middle"⟩] :=
      named_of_names Element.labelForm rfl (by decide)
    exact ⟨named_append (named_append look.named_identity hform) (hstyle hL style), tail⟩

/-- a drawing whose styles have names can be put into a document -/
theorem Drawn.sound (hS : ∀ style, S style → Named style) (hL : ∀ style, L style → Named style)
    {d : Drawing} (h : Drawn S L d) : Sound d where
  named p hp := (h.made p hp).wellNamed hS hL
  single name attrs tail hp := by
    generalize hpiece : Piece.leaf name attrs tail = p at hp
    cases h.made p hp with
    | start look => cases hpiece
    | finish => cases hpiece
    | element form tail style =>
      cases hpiece
      exact (Element.forms_named _ form).2.1
    | label tail style => cases hpiece
  nested := h.nested

end

end Figures
