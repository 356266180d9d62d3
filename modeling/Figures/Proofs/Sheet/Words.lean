import Figures.Proofs.Markup.Words
import Figures.Sheet.Pen

/-!
# The words of drawings

* `Worded given d`       every word of a drawing has allowed characters and given ones only
* `Look.Worded`          so has every word that an element carries besides its geometry
* `worded_element`       geometry adds no other characters: neither numbers nor path data
* `Pen.worded_text`, …   what a pen draws is worded as the names and texts that it is given

-/

namespace Figures

variable {given : List Char}

/-- the words of a piece have allowed characters and given ones only -/
def Piece.Worded (given : List Char) (p : Piece) : Prop := ∀ w ∈ p.words, Spelled given w

def Worded (given : List Char) (d : Drawing) : Prop := ∀ p ∈ d, p.Worded given

/-- the words that an element carries besides its geometry have such characters only -/
structure Look.Worded (given : List Char) (look : Look) : Prop where
  id : ∀ s, look.id = some s → Spelled given s
  cls : ∀ s, look.cls = some s → Spelled given s
  style : ∀ w ∈ look.style.flatMap Attr.words, Spelled given w
  tail : Spelled given look.tail

/-! ### putting together -/

@[simp] theorem worded_nil : Worded given [] := fun _ hp => absurd hp List.not_mem_nil

@[simp] theorem worded_cons_iff {p : Piece} {d : Drawing} :
    Worded given (p :: d) ↔ p.Worded given ∧ Worded given d := List.forall_mem_cons

@[simp] theorem worded_append_iff {a b : Drawing} :
    Worded given (a ++ b) ↔ Worded given a ∧ Worded given b := List.forall_mem_append

@[simp] theorem worded_when_iff {d : Drawing} {b : Bool} :
    Worded given (d.when b) ↔ (b = true → Worded given d) := by
  cases b with
  | false => exact iff_of_true worded_nil nofun
  | true => exact ⟨fun h _ => h, fun h => h rfl⟩

@[simp] theorem worded_ite_iff {c : Prop} [Decidable c] {a b : Drawing} :
    Worded given (if c then a else b) ↔ (c → Worded given a) ∧ (¬ c → Worded given b) := by
  split <;> simp_all

@[simp] theorem worded_flatMap_iff {α : Type} {l : List α} {f : α → Drawing} :
    Worded given (l.flatMap f) ↔ ∀ x ∈ l, Worded given (f x) := by
  simp only [Worded, List.mem_flatMap]
  exact ⟨fun h x hx p hp => h p ⟨x, hx, hp⟩, fun h p ⟨x, hx, hp⟩ => h x hx p hp⟩

/-! ### single pieces -/

/-- an id, a class, both or none, of which an empty class is not written -/
theorem Look.spelled_identity {look : Look} (h : look.Worded given) :
    ∀ w ∈ look.identity.flatMap Attr.words, Spelled given w := by
  intro w hw
  simp only [Look.identity, List.flatMap_append, List.mem_append, List.mem_flatMap,
    Option.mem_toList, Option.map_eq_some_iff, Option.filter_eq_some_iff] at hw
  rcases hw with ⟨_, ⟨s, hs, rfl⟩, hw⟩ | ⟨_, ⟨s, ⟨hs, -⟩, rfl⟩, hw⟩
  · simp only [Attr.words, List.mem_cons, List.not_mem_nil, or_false] at hw
    rcases hw with rfl | rfl
    · exact spelled_of_allowed (by decide)
    · exact h.id _ hs
  · simp only [Attr.words, List.mem_cons, List.not_mem_nil, or_false] at hw
    rcases hw with rfl | rfl
    · exact spelled_of_allowed (by decide)
    · exact h.cls _ hs

theorem worded_element {name : String} {look : Look} {geometry : List Attr} (hname : Allowed name)
    (hlook : look.Worded given) (hgeometry : ∀ a ∈ geometry, ∀ w ∈ a.words, Spelled given w) :
    (Piece.element name look geometry).Worded given := by
  intro w hw
  simp only [Piece.element, Piece.words, List.flatMap_append, List.mem_cons, List.mem_append] at hw
  rcases hw with rfl | rfl | (hw | hw) | hw
  · exact spelled_of_allowed hname
  · exact hlook.tail
  · exact look.spelled_identity hlook w hw
  · obtain ⟨a, ha, hwa⟩ := List.mem_flatMap.mp hw
    exact hgeometry a ha w hwa
  · exact hlook.style w hw

theorem spelled_number (places : Nat) {name : String} (hname : Allowed name) (x : Float) :
    ∀ w ∈ (Piece.number places name x).words, Spelled given w := by
  intro w hw
  simp only [Attr.words, Piece.number, List.mem_cons, List.not_mem_nil, or_false] at hw
  rcases hw with rfl | rfl
  · exact spelled_of_allowed hname
  · exact spelled_tidy places x

theorem spelled_pointsText (places : Nat) (points : List Point) :
    Spelled given (Piece.pointsText places points) := by
  refine spelled_intercalate (spelled_of_allowed (by decide)) fun s hs => ?_
  obtain ⟨p, -, rfl⟩ := List.mem_map.mp hs
  exact spelled_append.mpr ⟨spelled_append.mpr ⟨spelled_tidy _ _, spelled_of_allowed (by decide)⟩,
    spelled_tidy _ _⟩

namespace Path

theorem spelled_pair (places : Nat) (x y : Float) : Spelled given (pair places x y) :=
  spelled_append.mpr ⟨spelled_append.mpr ⟨spelled_tidy _ _, spelled_of_allowed (by decide)⟩,
    spelled_tidy _ _⟩

theorem spelled_arcText (places : Nat) (rx ry : Float) (large sweep : Bool) (stop : Point) :
    Spelled given (arcText places rx ry large sweep stop) := by
  have hbit : ∀ b, Spelled given (bit b) := by
    intro b
    cases b <;> exact spelled_of_allowed (by decide)
  simp only [arcText, spelled_append, spelled_pair, hbit, and_true]
  exact ⟨⟨⟨spelled_of_allowed (by decide), spelled_of_allowed (by decide)⟩,
    spelled_of_allowed (by decide)⟩, spelled_of_allowed (by decide)⟩

theorem spelled_text (places : Nat) (path : Path) : Spelled given (path.text places) := by
  refine spelled_intercalate (spelled_of_allowed (by decide)) fun s hs => ?_
  obtain ⟨segment, -, rfl⟩ := List.mem_map.mp hs
  cases segment with
  | move p => exact spelled_append.mpr ⟨spelled_of_allowed (by decide), spelled_pair _ _ _⟩
  | line p => exact spelled_append.mpr ⟨spelled_of_allowed (by decide), spelled_pair _ _ _⟩
  | arc p r large sweep => exact spelled_arcText _ _ _ _ _ _
  | ellipse p rx ry large sweep => exact spelled_arcText _ _ _ _ _ _
  | close => exact spelled_of_allowed (by decide : Allowed "Z")

end Path

section
variable (places : Nat) {look : Look} (hlook : look.Worded given)
include hlook

theorem worded_numbers {name : String} (hname : Allowed name) (numbers : List (String × Float))
    (hnumbers : ∀ e ∈ numbers, Allowed e.1) :
    (Piece.element name look (numbers.map fun e => Piece.number places e.1 e.2)).Worded given := by
  refine worded_element hname hlook fun a ha => ?_
  obtain ⟨e, he, rfl⟩ := List.mem_map.mp ha
  exact spelled_number places (hnumbers e he) e.2

@[simp] theorem worded_line (a b : Point) : (Piece.line places look a b).Worded given := by
  refine worded_numbers places hlook (by decide) [("x1", a.x), ("y1", a.y), ("x2", b.x),
    ("y2", b.y)] ?_
  simp only [List.forall_mem_cons, List.not_mem_nil, false_implies, implies_true, and_true]
  decide

@[simp] theorem worded_rect (corner : Point) (width height : Float) :
    (Piece.rect places look corner width height).Worded given := by
  refine worded_numbers places hlook (by decide)
    [("x", corner.x), ("y", corner.y), ("width", width), ("height", height)] ?_
  simp only [List.forall_mem_cons, List.not_mem_nil, false_implies, implies_true, and_true]
  decide

@[simp] theorem worded_circle (center : Point) (r : Float) :
    (Piece.circle places look center r).Worded given := by
  refine worded_numbers places hlook (by decide) [("cx", center.x), ("cy", center.y), ("r", r)] ?_
  simp only [List.forall_mem_cons, List.not_mem_nil, false_implies, implies_true, and_true]
  decide

@[simp] theorem worded_ellipse (center : Point) (rx ry : Float) :
    (Piece.ellipse places look center rx ry).Worded given := by
  refine worded_numbers places hlook (by decide)
    [("cx", center.x), ("cy", center.y), ("rx", rx), ("ry", ry)] ?_
  simp only [List.forall_mem_cons, List.not_mem_nil, false_implies, implies_true, and_true]
  decide

theorem worded_single {name key value : String} (hname : Allowed name) (hkey : Allowed key)
    (hvalue : Spelled given value) : (Piece.element name look [⟨key, value⟩]).Worded given := by
  refine worded_element hname hlook fun a ha w hw => ?_
  obtain rfl := List.mem_singleton.mp ha
  simp only [Attr.words, List.mem_cons, List.not_mem_nil, or_false] at hw
  rcases hw with rfl | rfl
  · exact spelled_of_allowed hkey
  · exact hvalue

theorem worded_polygon (points : List Point) : (Piece.polygon places look points).Worded given :=
  worded_single hlook (by decide) (by decide) (spelled_pointsText places points)

theorem worded_polyline (points : List Point) : (Piece.polyline places look points).Worded given :=
  worded_single hlook (by decide) (by decide) (spelled_pointsText places points)

theorem worded_path (p : Path) : (Piece.path places look p).Worded given :=
  worded_single hlook (by decide) (by decide) (p.spelled_text places)

theorem worded_label {content : String} (hcontent : Spelled given content) (p : Point)
    (anchor : Anchor) : (Piece.label places look content p anchor).Worded given := by
  have hanchor : Allowed anchor.name := by cases anchor <;> decide
  intro w hw
  simp only [Piece.label, Piece.words, List.flatMap_append, List.flatMap_cons, List.flatMap_nil,
    List.append_nil, List.mem_cons, List.mem_append] at hw
  rcases hw with rfl | rfl | (hw | hw | hw | hw | hw) | hw
  · exact hcontent
  · exact hlook.tail
  · exact look.spelled_identity hlook w hw
  · exact spelled_number places (by decide) p.x w hw
  · exact spelled_number places (by decide) p.y w hw
  · simp only [Attr.words, List.mem_cons, List.not_mem_nil, or_false] at hw
    rcases hw with rfl | rfl
    · exact spelled_of_allowed (by decide)
    · exact spelled_of_allowed hanchor
  · simp only [Attr.words, List.mem_cons, List.not_mem_nil, or_false] at hw
    rcases hw with rfl | rfl <;> exact spelled_of_allowed (by decide)
  · exact hlook.style w hw

end

/-! ### named elements -/

theorem Element.spelled_id_iff (e : Element) {name : String} :
    Spelled given (e.id name) ↔ Spelled given name := by
  have hcode : Allowed e.code := by cases e <;> decide
  rw [Element.id, spelled_append, spelled_append]
  exact and_iff_right ⟨spelled_of_allowed hcode, spelled_of_allowed (by decide)⟩

theorem worded_named {e : Element} {name cls : String} {style : List Attr}
    (hname : Spelled given name) (hcls : Spelled given cls)
    (hstyle : ∀ w ∈ style.flatMap Attr.words, Spelled given w) :
    Look.Worded given { e.look name cls with style } where
  id s hs := by
    obtain rfl : e.id name = s := Option.some.inj hs
    exact (e.spelled_id_iff).mpr hname
  cls s hs := by
    obtain rfl : cls = s := Option.some.inj hs
    exact hcls
  style := hstyle
  tail := spelled_empty

@[simp] theorem worded_look_iff {e : Element} {name cls : String} :
    (e.look name cls).Worded given ↔ Spelled given name ∧ Spelled given cls :=
  ⟨fun h => ⟨e.spelled_id_iff.mp (h.id _ rfl), h.cls _ rfl⟩, fun h => worded_named h.1 h.2 nofun⟩

theorem worded_look {e : Element} {name cls : String} (hname : Spelled given name)
    (hcls : Allowed cls) :
    (e.look name cls).Worded given := worded_look_iff.mpr ⟨hname, spelled_of_allowed hcls⟩

@[simp] theorem worded_group_iff {name : String} {d : Drawing} :
    Worded given (Pen.group name d) ↔ Spelled given name ∧ Worded given d := by
  have hstart : (Pen.groupStart name).Worded given ↔ Spelled given name := by
    rw [← Element.group.spelled_id_iff]
    constructor
    · intro h
      exact h _ (by simp [Pen.groupStart, Piece.groupOf, Piece.words, Look.identity, Attr.words])
    · intro h
      have hlook : Look.Worded given { id := some (Element.group.id name) } :=
        ⟨fun s hs => Option.some.inj hs ▸ h, fun s hs => absurd hs.symm (Option.some_ne_none s),
          fun s hs => absurd hs List.not_mem_nil, spelled_empty⟩
      exact Look.spelled_identity hlook
  have hend : Worded given [.groupEnd] := List.forall_mem_singleton.mpr fun s hs =>
    absurd hs List.not_mem_nil
  rw [Pen.group, List.cons_append, worded_cons_iff, worded_append_iff, hstart, and_iff_left hend]

namespace Pen

variable (pen : Pen) {name : String} (hname : Spelled given name)
include hname

@[simp] theorem worded_dot (p : Point) : Worded given (pen.dot name p) :=
  List.forall_mem_singleton.mpr (worded_circle pen.places (worded_look hname (by decide)) p
    pen.pointRadius)

@[simp] theorem worded_rule {cls : String} (hcls : Allowed cls) (a b : Point) :
    Worded given (pen.rule name a b cls) :=
  List.forall_mem_singleton.mpr (worded_line pen.places (worded_look hname hcls) a b)

@[simp] theorem worded_segment (a b : Point) : Worded given (pen.segment name a b) :=
  pen.worded_rule hname (by decide) a b

@[simp] theorem worded_hiddenSegment (a b : Point) : Worded given (pen.hiddenSegment name a b) :=
  pen.worded_rule hname (by decide) a b

@[simp] theorem worded_text {content cls : String} (hcontent : Spelled given content)
    (hcls : Allowed cls)
    (p : Point) (anchor : Anchor) : Worded given (pen.text name content p anchor cls) := by
  unfold Pen.text
  split
  · exact worded_nil
  · exact List.forall_mem_singleton.mpr
      (Figures.worded_label pen.places (worded_look hname hcls) hcontent p anchor)

@[simp] theorem worded_label {content : String} (hcontent : Spelled given content) (p : Point) :
    Worded given (pen.label name content p) :=
  pen.worded_text hname hcontent (by decide) p .middle

@[simp] theorem worded_sideLabel {content : String} (hcontent : Spelled given content)
    (a b inside : Point) :
    Worded given (pen.sideLabel name content a b inside) :=
  pen.worded_text hname hcontent (by decide) _ .middle

@[simp] theorem worded_arc (arc : AngleArc) : Worded given (pen.arc name arc) :=
  List.forall_mem_singleton.mpr (worded_path pen.places (worded_look hname (by decide)) arc.path)

@[simp] theorem worded_arcLabel {content : String} (hcontent : Spelled given content)
    (vertex : Point) (arc : AngleArc) : Worded given (pen.arcLabel name content vertex arc) :=
  pen.worded_text hname hcontent (by decide) _ .middle

@[simp] theorem worded_rightAngle (vertex p q : Point) (size : Float) :
    Worded given (pen.rightAngle name vertex p q size) :=
  List.forall_mem_singleton.mpr (worded_path pen.places (worded_look hname (by decide)) _)

@[simp] theorem worded_equalTicks (a b : Point) (count : Nat) :
    Worded given (pen.equalTicks name a b count) :=
  List.forall_mem_singleton.mpr (worded_path pen.places (worded_look hname (by decide)) _)

@[simp] theorem worded_polygon {cls : String} (hcls : Allowed cls) (e : Element)
    (points : List Point) :
    Worded given (pen.polygon e name points cls) :=
  List.forall_mem_singleton.mpr (Figures.worded_polygon pen.places (worded_look hname hcls) points)

@[simp] theorem worded_path {cls : String} (hcls : Allowed cls) (e : Element) (p : Path) :
    Worded given (pen.path e name p cls) :=
  List.forall_mem_singleton.mpr (Figures.worded_path pen.places (worded_look hname hcls) p)

omit hname in
theorem mem_words_text (name : String) {content : String} (h : content.isEmpty = false) (p : Point)
    (anchor : Anchor) (cls : String) :
    content ∈ (pen.text name content p anchor cls).flatMap Piece.words := by
  rw [Pen.text, h]
  exact List.mem_flatMap.mpr ⟨_, List.mem_singleton.mpr rfl, List.mem_cons_self⟩

end Pen

end Figures
