import Figures.Proofs.Markup.Marks
import Figures.Proofs.Number.Scaled
import Figures.Sheet.Pen

/-!
# Drawings under other numerals

* `Numerals.Agrees`    numerals that write finite numbers as usual
* `Numerals.marked`    the usual ones, but with the sign of infinity for all that is not finite
* `Steady size f q`    what is made of numerals does not depend on how other numbers than finite
                       ones are written, if and only if `q`
* `Phrased f q`        the same of a text that does not vanish under a mark
* `Pen.steady_dot`, …  when the parts of figures are steady: if their numbers are finite

`q` is put together along a drawing, so a figure is steady if and only if every number that is
written in it is finite.
-/

namespace Figures

open Markup

/-- finite numbers are written as usual -/
def Numerals.Agrees (w : Numerals) : Prop :=
  ∀ places x, x.isFinite = true → w.written places x = Numerals.standard.written places x

/-- the usual numerals, but with the sign of infinity for all that is not finite -/
@[reducible] def Numerals.marked : Numerals where
  written places x := if x.isFinite then Numerals.standard.written places x else "∞"

theorem Numerals.agrees_marked : Numerals.marked.Agrees := fun _ _ h => if_pos h

/-- What is made of numerals is the same for all that agree on finite numbers if `q` holds, and is
marked more often than usual if not. -/
structure Steady {α : Type} (size : α → Nat) (f : Numerals → α) (q : Prop) : Prop where
  same : q → ∀ w : Numerals, w.Agrees → f w = f .standard
  le : size (f .standard) ≤ size (f .marked)
  lt : ¬ q → size (f .standard) < size (f .marked)

namespace Steady

variable {α β γ : Type} {size : α → Nat} {sizeβ : β → Nat} {sizeγ : γ → Nat} {f g : Numerals → α}
  {p q : Prop}

theorem const (size : α → Nat) (a : α) : Steady size (fun _ => a) True :=
  ⟨fun _ _ _ => rfl, le_rfl, fun h => absurd trivial h⟩

theorem congr (h : Steady size f p) (hpq : p ↔ q) : Steady size f q :=
  ⟨fun hq => h.same (hpq.mpr hq), h.le, fun hq => h.lt fun hp => hq (hpq.mp hp)⟩

/-- a function that adds a fixed number of marks -/
theorem map {m : α → β} {c : Nat} (hm : ∀ a, sizeβ (m a) = size a + c) (h : Steady size f q) :
    Steady sizeβ (fun w => m (f w)) q where
  same hq w hw := congrArg m (h.same hq w hw)
  le := by
    rw [hm, hm]
    exact Nat.add_le_add_right h.le c
  lt hq := by
    rw [hm, hm]
    exact Nat.add_lt_add_right (h.lt hq) c

theorem map₂ {m : α → β → γ} {c : Nat} (hm : ∀ a b, sizeγ (m a b) = size a + sizeβ b + c)
    {e : Numerals → β} (hf : Steady size f p) (he : Steady sizeβ e q) :
    Steady sizeγ (fun w => m (f w) (e w)) (p ∧ q) where
  same h w hw := congrArg₂ m (hf.same h.1 w hw) (he.same h.2 w hw)
  le := by
    rw [hm, hm]
    exact Nat.add_le_add_right (Nat.add_le_add hf.le he.le) c
  lt h := by
    rw [hm, hm]
    refine Nat.add_lt_add_right ?_ c
    by_cases hp : p
    · exact Nat.add_lt_add_of_le_of_lt hf.le (he.lt fun hq => h ⟨hp, hq⟩)
    · exact Nat.add_lt_add_of_lt_of_le (hf.lt hp) he.le

theorem ite {c : Prop} [Decidable c] (hf : Steady size f p) (hg : Steady size g q) :
    Steady size (fun w => if c then f w else g w) (if c then p else q) := by
  split <;> assumption

end Steady

/-! ### texts -/

/-- a steady text that does not vanish when it is marked -/
structure Phrased (f : Numerals → String) (q : Prop) : Prop extends Steady marks f q where
  blank : f .marked = "" → f .standard = ""

namespace Phrased

variable {f g : Numerals → String} {p q : Prop}

theorem const (s : String) : Phrased (fun _ => s) True := ⟨.const marks s, id⟩

theorem tidy (places : Nat) (x : Float) :
    Phrased (fun w => @Figures.tidy w places x) (x.isFinite = true) := by
  by_cases h : x.isFinite = true
  · have hmarked : @Figures.tidy .marked places x = Figures.tidy places x := if_pos h
    exact ⟨⟨fun h w hw => hw places x h, hmarked ▸ le_rfl, fun hnot => absurd h hnot⟩,
      fun he => hmarked ▸ he⟩
  · have hmarked : @Figures.tidy .marked places x = "∞" := if_neg h
    have hzero : Figures.tidy places x = "0" := by
      rw [tidy_standard]
      cases hexact : Binary.ofFloat? x with
      | none => rfl
      | some b => exact absurd (isFinite_of_ofFloat? hexact) h
    refine ⟨⟨fun hfinite => absurd hfinite h, ?_, fun _ => ?_⟩, fun he => ?_⟩
    · show marks (Figures.tidy places x) ≤ marks (@Figures.tidy .marked places x)
      rw [hmarked, hzero]
      decide
    · show marks (Figures.tidy places x) < marks (@Figures.tidy .marked places x)
      rw [hmarked, hzero]
      decide
    · exact absurd (hmarked.symm.trans he) (by decide)

theorem append (hf : Phrased f p) (hg : Phrased g q) : Phrased (fun w => f w ++ g w) (p ∧ q) where
  toSteady := .map₂ (m := fun s t => s ++ t) (c := 0) marks_append hf.toSteady hg.toSteady
  blank h := by
    obtain ⟨hfirst, hsecond⟩ := String.append_eq_empty_iff.mp h
    exact String.append_eq_empty_iff.mpr ⟨hf.blank hfirst, hg.blank hsecond⟩

theorem ite {c : Prop} [Decidable c] (hf : Phrased f p) (hg : Phrased g q) :
    Phrased (fun w => if c then f w else g w) (if c then p else q) := by
  split <;> assumption

theorem congr (h : Phrased f p) (hpq : p ↔ q) : Phrased f q := ⟨h.toSteady.congr hpq, h.blank⟩

end Phrased

/-! ### attributes -/

/-- how often attributes hold the sign of infinity -/
def attrMarks (attrs : List Attr) : Nat := (attrs.map Attr.marks).sum

theorem attrMarks_append (a b : List Attr) : attrMarks (a ++ b) =
    attrMarks a + attrMarks b + 0 := by
  rw [attrMarks, List.map_append, List.sum_append]
  rfl

namespace Steady

variable {p q : Prop}

theorem attr (name : String) {value : Numerals → String} (h : Steady marks value q) :
    Steady Attr.marks (fun w => ⟨name, value w⟩) q := .map (marks_attr name) h

theorem number (places : Nat) (name : String) (x : Float) :
    Steady Attr.marks (fun w => @Piece.number w places name x) (x.isFinite = true) :=
  .attr name (Phrased.tidy places x).toSteady

theorem cons {a : Numerals → Attr} {rest : Numerals → List Attr} (ha : Steady Attr.marks a p)
    (hrest : Steady attrMarks rest q) : Steady attrMarks (fun w => a w :: rest w) (p ∧ q) :=
  .map₂ (m := fun a rest => a :: rest) (c := 0) (fun _ _ => rfl) ha hrest

/-- texts put together with blanks between them -/
theorem words {α : Type} {word : Numerals → α → String} {good : α → Prop}
    (hword : ∀ a, Steady marks (fun w => word w a) (good a)) (l : List α) :
    Steady marks (fun w => " ".intercalate (l.map (word w))) (∀ a ∈ l, good a) := by
  induction l with
  | nil => exact (const marks "").congr (iff_of_true trivial nofun)
  | cons a rest ih =>
    cases rest with
    | nil => exact (hword a).congr List.forall_mem_singleton.symm
    | cons b rest =>
      have hjoined : Steady marks
          (fun w => word w a ++ " " ++ " ".intercalate ((b :: rest).map (word w)))
          (good a ∧ ∀ c ∈ b :: rest, good c) :=
        map₂ (m := fun s t => s ++ " " ++ t) (c := 0) (fun s t => by
          rw [marks_append, marks_append]
          rfl) (hword a) ih
      simp only [List.map_cons, String.intercalate_cons_cons] at hjoined ⊢
      exact hjoined.congr List.forall_mem_cons.symm

end Steady

def Segment.isFinite : Segment → Bool
  | .move p => p.isFinite
  | .line p => p.isFinite
  | .arc p r _ _ => p.isFinite && r.isFinite
  | .ellipse p rx ry _ _ => p.isFinite && rx.isFinite && ry.isFinite
  | .close => true

theorem Path.steady_pair (places : Nat) (x y : Float) :
    Phrased (fun w => @Path.pair w places x y) (x.isFinite = true ∧ y.isFinite = true) :=
  (((Phrased.tidy places x).append (.const " ")).append (.tidy places y)).congr (by rw [and_true])

theorem Point.isFinite_iff {p : Point} : p.isFinite = true ↔ p.x.isFinite = true ∧
    p.y.isFinite = true := by
  rw [isFinite, Bool.and_eq_true]

theorem Path.steady_arcText (places : Nat) (rx ry : Float) (large sweep : Bool) (stop : Point) :
    Phrased (fun w => @Path.arcText w places rx ry large sweep stop)
      ((rx.isFinite = true ∧ ry.isFinite = true) ∧ stop.isFinite = true) := by
  have hradii := ((Phrased.const "A").append (steady_pair places rx ry)).append (.const " 0 ")
  have hchoices := ((hradii.append (.const (bit large))).append (.const " ")).append
    (.const (bit sweep))
  refine ((hchoices.append (.const " ")).append (steady_pair places stop.x stop.y)).congr ?_
  rw [Point.isFinite_iff]
  tauto

theorem Path.steady_segmentText (places : Nat) (s : Segment) :
    Phrased (fun w => @Path.segmentText w places s) (s.isFinite = true) := by
  cases s with
  | move p =>
    exact ((Phrased.const "M").append (steady_pair places p.x p.y)).congr (by
      rw [Segment.isFinite, Point.isFinite_iff, true_and])
  | line p =>
    exact ((Phrased.const "L").append (steady_pair places p.x p.y)).congr (by
      rw [Segment.isFinite, Point.isFinite_iff, true_and])
  | arc p r large sweep =>
    exact (steady_arcText places r r large sweep p).congr (by
      rw [Segment.isFinite, Bool.and_eq_true, and_self, and_comm])
  | ellipse p rx ry large sweep =>
    exact (steady_arcText places rx ry large sweep p).congr (by
      rw [Segment.isFinite, Bool.and_eq_true, Bool.and_eq_true, and_comm, and_assoc])
  | close => exact (Phrased.const "Z").congr (by rw [Segment.isFinite, true_iff])

/-! ### drawings -/

namespace Steady

variable {d e : Numerals → Drawing} {p q : Prop}

theorem append (hd : Steady tally d p) (he : Steady tally e q) :
    Steady tally (fun w => d w ++ e w) (p ∧ q) :=
  .map₂ (m := fun d e => d ++ e) (c := 0) tally_append hd he

theorem when (b : Bool) (h : Steady tally d q) :
    Steady tally (fun w => Drawing.when b (d w)) (b = true → q) := by
  cases b with
  | false => exact (const tally []).congr (iff_of_true trivial nofun)
  | true => exact h.congr ⟨fun hq _ => hq, fun hq => hq rfl⟩

theorem group (name : String) (h : Steady tally d q) :
    Steady tally (fun w => Pen.group name (d w)) q :=
  .map (c := marks (pieceText (Pen.groupStart name)) + marks (pieceText .groupEnd)) (fun d => by
    rw [Pen.group, List.cons_append, tally_cons, tally_append, tally_cons, tally_nil]
    omega) h

theorem flatMap {α : Type} {part : Numerals → α → Drawing} {good : α → Prop} {l : List α}
    (h : ∀ a ∈ l, Steady tally (fun w => part w a) (good a)) :
    Steady tally (fun w => l.flatMap (part w)) (∀ a ∈ l, good a) := by
  induction l with
  | nil => exact (const tally []).congr (iff_of_true trivial nofun)
  | cons a rest ih =>
    simp only [List.flatMap_cons]
    exact ((h a List.mem_cons_self).append
      (ih fun b hb => h b (List.mem_cons_of_mem a hb))).congr List.forall_mem_cons.symm

theorem leaf (kind : String) {attrs : Numerals → List Attr} (h : Steady attrMarks attrs q)
    (tail : String) : Steady tally (fun w => [Piece.leaf kind (attrs w) tail]) q :=
  .map (m := fun attrs => [Piece.leaf kind attrs tail])
    (c := marks "<" + marks kind + marks tail + marks "/>") (fun attrs => by
      simp only [tally_cons, tally_nil, pieceText, marks_append, marks_attrsText, attrMarks]
      omega) h

theorem text {attrs : Numerals → List Attr} {content : Numerals → String}
    (h : Steady attrMarks attrs p) (hcontent : Steady marks content q) (tail : String) :
    Steady tally (fun w => [Piece.text (attrs w) tail (content w)]) (p ∧ q) :=
  .map₂ (m := fun attrs content => [Piece.text attrs tail content])
    (c := marks "<text" + marks tail + marks ">" + marks "</text>") (fun attrs content => by
      simp only [tally_cons, tally_nil, pieceText, marks_append, marks_attrsText, attrMarks,
        marks_escape]
      omega) h hcontent

/-- the id of an element may hold numbers -/
theorem identity (e : Element) {name : Numerals → String} (h : Phrased name q) (cls : String) :
    Steady attrMarks (fun w => (e.look (name w) cls).identity) q := by
  refine .map (m := fun name => (e.look name cls).identity)
    (c := marks (e.code ++ ":") + (marks " " + marks "id" + marks "=\"" + marks "\"") +
      attrMarks ((some cls |>.filter fun c => !c.isEmpty).map (Attr.mk "class")).toList)
    (fun name => ?_) h.toSteady
  simp only [Look.identity, Element.look, Element.id, Option.map_some, Option.toList_some,
    attrMarks_append]
  rw [attrMarks, List.map_singleton, List.sum_singleton, marks_attr, marks_append]
  omega

theorem element (kind : String) (look : Look) {geometry : Numerals → List Attr}
    (h : Steady attrMarks geometry q) :
    Steady tally (fun w => [Piece.element kind look (geometry w)]) q :=
  (leaf kind (.map₂ (m := fun a b => a ++ b) attrMarks_append
    (.map₂ (m := fun a b => a ++ b) attrMarks_append (.const _ look.identity) h)
    (.const _ look.style)) look.tail).congr (by tauto)

/-- a named element, whose name may hold numbers -/
theorem named (kind : String) (e : Element) {name : Numerals → String} (hname : Phrased name p)
    (cls : String) {geometry : Numerals → List Attr} (h : Steady attrMarks geometry q) :
    Steady tally (fun w => [Piece.element kind (e.look (name w) cls) (geometry w)]) (p ∧ q) :=
  (leaf kind (.map₂ (m := fun a b => a ++ b) attrMarks_append
    (.map₂ (m := fun a b => a ++ b) attrMarks_append (identity e hname cls) h)
    (.const _ [])) "").congr (by tauto)

theorem labelOf (e : Element) {name content : Numerals → String} (hname : Phrased name p)
    (hcontent : Steady marks content q) (cls : String) {style : Numerals → List Attr} {r : Prop}
    (hstyle : Steady attrMarks style r) (places : Nat) (at' : Point) (anchor : Anchor) :
    Steady tally (fun w => [@Piece.label w places { e.look (name w) cls with style := style w }
      (content w) at' anchor]) (((p ∧ at'.isFinite = true) ∧ r) ∧ q) := by
  have hgeometry : Steady attrMarks (fun w => [@Piece.number w places "x" at'.x,
      @Piece.number w places "y" at'.y, ⟨"text-anchor", anchor.name⟩,
      ⟨"dominant-baseline", "middle"⟩])
      (at'.isFinite = true) :=
    ((number places "x" at'.x).cons ((number places "y" at'.y).cons (.const _ _))).congr (by
      rw [and_true, Point.isFinite_iff])
  exact text (.map₂ (m := fun a b => a ++ b) attrMarks_append
    (.map₂ (m := fun a b => a ++ b) attrMarks_append (identity e hname cls) hgeometry)
      hstyle) hcontent ""

end Steady

/-! ### elements -/

namespace Steady

variable (places : Nat)

theorem lineNumbers (a b : Point) :
    Steady attrMarks (fun w => [@Piece.number w places "x1" a.x, @Piece.number w places "y1" a.y,
      @Piece.number w places "x2" b.x, @Piece.number w places "y2" b.y])
      (a.isFinite = true ∧ b.isFinite = true) :=
  ((number places "x1" a.x).cons ((number places "y1" a.y).cons ((number places "x2" b.x).cons
    ((number places "y2" b.y).cons (.const _ []))))).congr (by
      rw [Point.isFinite_iff, Point.isFinite_iff]
      tauto)

theorem rectNumbers (corner : Point) (width height : Float) :
    Steady attrMarks (fun w => [@Piece.number w places "x" corner.x,
      @Piece.number w places "y" corner.y, @Piece.number w places "width" width,
      @Piece.number w places "height" height])
      (corner.isFinite = true ∧ width.isFinite = true ∧ height.isFinite = true) :=
  ((number places "x" corner.x).cons ((number places "y" corner.y).cons
    ((number places "width" width).cons ((number places "height" height).cons
      (.const _ []))))).congr (by
      rw [Point.isFinite_iff]
      tauto)

theorem circleNumbers (center : Point) (r : Float) :
    Steady attrMarks (fun w => [@Piece.number w places "cx" center.x,
      @Piece.number w places "cy" center.y, @Piece.number w places "r" r])
      (center.isFinite = true ∧ r.isFinite = true) :=
  ((number places "cx" center.x).cons ((number places "cy" center.y).cons
    ((number places "r" r).cons (.const _ [])))).congr (by
      rw [Point.isFinite_iff]
      tauto)

theorem ellipseNumbers (center : Point) (rx ry : Float) :
    Steady attrMarks (fun w => [@Piece.number w places "cx" center.x,
      @Piece.number w places "cy" center.y, @Piece.number w places "rx" rx,
      @Piece.number w places "ry" ry])
      (center.isFinite = true ∧ rx.isFinite = true ∧ ry.isFinite = true) :=
  ((number places "cx" center.x).cons ((number places "cy" center.y).cons
    ((number places "rx" rx).cons ((number places "ry" ry).cons (.const _ []))))).congr (by
      rw [Point.isFinite_iff]
      tauto)

theorem pointNumbers (points : List Point) :
    Steady attrMarks (fun w => [⟨"points", @Piece.pointsText w places points⟩])
      (∀ p ∈ points, p.isFinite = true) := by
  have hpair : ∀ p : Point, Steady marks
      (fun w => @Figures.tidy w places p.x ++ "," ++ @Figures.tidy w places p.y)
        (p.isFinite = true) :=
    fun p => (((Phrased.tidy places p.x).append (.const ",")).append
      (.tidy places p.y)).toSteady.congr (by
      rw [and_true, Point.isFinite_iff])
  exact ((attr "points" (words hpair points)).cons (.const _ [])).congr (and_iff_left trivial)

theorem pathNumbers (path : Path) :
    Steady attrMarks (fun w => [⟨"d", @Path.text w places path⟩])
      (∀ s ∈ path, s.isFinite = true) :=
  ((attr "d" (words (fun s => (Path.steady_segmentText places s).toSteady) path)).cons
    (.const _ [])).congr (and_iff_left trivial)

end Steady

/-! ### pens -/

namespace Pen

variable (pen : Pen)

theorem steady_dot (name : String) (p : Point) : Steady tally (fun w => @Pen.dot w pen name p)
    (p.isFinite = true ∧ pen.pointRadius.isFinite = true) :=
  .element "circle" _ (.circleNumbers pen.places p pen.pointRadius)

theorem steady_rule {name : Numerals → String} {q : Prop} (hname : Phrased name q) (a b : Point)
    (cls : String) : Steady tally (fun w => @Pen.rule w pen (name w) a b cls)
      (q ∧ a.isFinite = true ∧ b.isFinite = true) :=
  .named "line" .line hname cls (.lineNumbers pen.places a b)

theorem steady_segment (name : String) (a b : Point) :
    Steady tally (fun w => @Pen.segment w pen name a b) (a.isFinite = true ∧ b.isFinite = true) :=
  .element "line" _ (.lineNumbers pen.places a b)

theorem steady_hiddenSegment (name : String) (a b : Point) :
    Steady tally (fun w => @Pen.hiddenSegment w pen name a b) (a.isFinite = true ∧
      b.isFinite = true) :=
  .element "line" _ (.lineNumbers pen.places a b)

theorem steady_polygon (e : Element) (name : String) (points : List Point) (cls : String) :
    Steady tally (fun w => @Pen.polygon w pen e name points cls)
      (∀ p ∈ points, p.isFinite = true) :=
  .element "polygon" _ (.pointNumbers pen.places points)

theorem steady_path (e : Element) (name : String) (path : Path) (cls : String) :
    Steady tally (fun w => @Pen.path w pen e name path cls) (∀ s ∈ path, s.isFinite = true) :=
  .element "path" _ (.pathNumbers pen.places path)

theorem steady_arc (name : String) (arc : AngleArc) :
    Steady tally (fun w => @Pen.arc w pen name arc) (∀ s ∈ arc.path, s.isFinite = true) :=
  .element "path" _ (.pathNumbers pen.places arc.path)

section
variable [Platform]

theorem steady_rightAngle (name : String) (vertex p q : Point) (size : Float) :
    Steady tally (fun w => @Pen.rightAngle w _ pen name vertex p q size)
      (∀ s ∈ Path.rightAngle vertex p q size, s.isFinite = true) :=
  .element "path" _ (.pathNumbers pen.places _)

theorem steady_equalTicks (name : String) (a b : Point) (count : Nat) :
    Steady tally (fun w => @Pen.equalTicks w _ pen name a b count)
      (∀ s ∈ Path.ticks a b 0.5 count 10.0 5.0, s.isFinite = true) :=
  .element "path" _ (.pathNumbers pen.places _)

end

theorem steady_text {name content : Numerals → String} {p q : Prop} (hname : Phrased name p)
    (hcontent : Phrased content q) (at' : Point) (anchor : Anchor) (cls : String) :
    Steady tally (fun w => @Pen.text w pen (name w) (content w) at' anchor cls)
      (q ∧ (content .standard ≠ "" → p ∧ at'.isFinite = true)) := by
  have hlabel := Steady.labelOf .text hname hcontent.toSteady cls (.const attrMarks [])
    pen.places at' anchor
  have hdrawn : ∀ {w : Numerals}, content w ≠ "" → @Pen.text w pen (name w) (content w)
      at' anchor cls
      = [@Piece.label w pen.places (Element.text.look (name w) cls) (content w) at' anchor] :=
    fun h => if_neg fun he => h (String.isEmpty_iff.mp he)
  have hnone : ∀ {w : Numerals}, content w = "" →
      @Pen.text w pen (name w) (content w) at' anchor cls = [] :=
    fun h => if_pos (String.isEmpty_iff.mpr h)
  by_cases hempty : content .standard = ""
  · constructor
    · intro h w hw
      rw [hnone hempty, hnone ((hcontent.same h.1 w hw).trans hempty)]
    · rw [hnone hempty]
      exact Nat.zero_le _
    · -- a mark makes it a text, which is drawn with the mark
      intro h
      have hmarked := hcontent.lt fun hq => h ⟨hq, fun hne => absurd hempty hne⟩
      rw [hempty] at hmarked
      have hne : content .marked ≠ "" := fun he => absurd (he ▸ hmarked) (lt_irrefl _)
      rw [hnone hempty, hdrawn hne]
      refine hmarked.trans_le ?_
      simp only [Piece.label, tally_cons, tally_nil, pieceText, marks_append, marks_escape]
      have hzero : marks "" = 0 := rfl
      omega
  · have hne : content .marked ≠ "" := fun he => hempty (hcontent.blank he)
    constructor
    · intro h w hw
      have hsame := hcontent.same h.1 w hw
      rw [hdrawn hempty, hdrawn (hsame ▸ hempty)]
      exact hlabel.same ⟨⟨h.2 hempty, trivial⟩, h.1⟩ w hw
    · rw [hdrawn hempty, hdrawn hne]
      exact hlabel.le
    · intro h
      rw [hdrawn hempty, hdrawn hne]
      exact hlabel.lt fun hall => h ⟨hall.2, fun _ => hall.1.1⟩

theorem steady_words (name content : String) (at' : Point) (anchor : Anchor) (cls : String) :
    Steady tally (fun w => @Pen.text w pen name content at' anchor cls)
      (content ≠ "" → at'.isFinite = true) :=
  (pen.steady_text (.const name) (.const content) at' anchor cls).congr (by
    rw [true_and, true_and])

theorem steady_label (name content : String) (p : Point) :
    Steady tally (fun w => @Pen.label w pen name content p) (content ≠ "" → p.isFinite = true) :=
  pen.steady_words name content p .middle Cls.text

section
variable [Platform]

/-- the place of a label beside the middle of a segment -/
def sideSpot (a b inside : Point) : Point :=
  let mid := Point.midpoint a b
  let n := Point.normal a b
  let near := Point.distance (mid.shift n.x n.y) inside < Point.distance mid inside
  let sign : Float := if near then -1.0 else 1.0
  ⟨mid.x + n.x * 18.0 * sign, mid.y + n.y * 18.0 * sign⟩

theorem steady_sideLabel (name : String) {content : Numerals → String} {q : Prop}
    (hcontent : Phrased content q) (a b inside : Point) :
    Steady tally (fun w => @Pen.sideLabel w _ pen name (content w) a b inside)
      (q ∧ (content .standard ≠ "" → (sideSpot a b inside).isFinite = true)) :=
  (pen.steady_text (.const name) hcontent (sideSpot a b inside) .middle Cls.sideText).congr (by
    rw [true_and])

theorem steady_arcLabel (name : String) {content : Numerals → String} {q : Prop}
    (hcontent : Phrased content q) (vertex : Point) (arc : AngleArc) :
    Steady tally (fun w => @Pen.arcLabel w _ pen name (content w) vertex arc)
      (q ∧ (content .standard ≠ "" → (arc.labelAt vertex (arc.radius + 16.0)).isFinite = true)) :=
  (pen.steady_text (.const name) hcontent _ .middle Cls.angleText).congr (by rw [true_and])

end

end Pen

/-! ### documents -/

theorem Steady.document {d : Numerals → Drawing} {q : Prop} (h : Steady tally d q) (layout : Layout)
    {width height : Float} (hwidth : width.isFinite = true) (hheight : height.isFinite = true)
    (styles : List String) :
    Steady marks (fun w => @Markup.document w layout width height styles (d w)) q := by
  have hframe : ∀ {w : Numerals}, w.Agrees → ∀ d : Drawing,
      @Markup.document w layout width height styles d
        = @Markup.document .standard layout width height styles d := by
    intro w hw d
    have htidy : ∀ x : Float, x.isFinite = true →
        @Figures.tidy w layout.places x = @Figures.tidy .standard layout.places x :=
        fun x hx => hw _ x hx
    simp only [Markup.document, documentLines_eq, htidy width hwidth, htidy height hheight]
  constructor
  · intro hq w hw
    rw [hframe hw, h.same hq w hw]
  · rw [hframe Numerals.agrees_marked, marks_document, marks_document _ _ _ _ (d .marked)]
    exact Nat.add_le_add_right h.le _
  · intro hq
    rw [hframe Numerals.agrees_marked, marks_document, marks_document _ _ _ _ (d .marked)]
    exact Nat.add_lt_add_right (h.lt hq) _

end Figures
