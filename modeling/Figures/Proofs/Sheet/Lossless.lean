import Figures.Proofs.Sheet.Drawn

/-!
# Nothing is lost in markup

* `escape_injective`   distinct texts are escaped to distinct ones
* `escape_append`      texts are escaped piece by piece
* `pieceText_inj`      distinct pieces are written as distinct markup
* `groupOf_inj`, `element_inj`, `label_inj`    so are ids, classes, style values and labels
* `escape_lossless`    what escaping leaves, that it can be undone, and what it tells apart

An empty class is not written, so it is not told apart from none.
-/

namespace Figures

open Markup

namespace Markup

theorem escape_injective : Function.Injective escape := by
  intro s t h
  rw [← String.toList_inj, ← unescape_escape s, ← unescape_escape t, h]

theorem escape_append (s t : String) : escape (s ++ t) = escape s ++ escape t := by
  rw [← String.toList_inj, String.toList_append, toList_escape, toList_escape, toList_escape,
    String.toList_append, List.flatMap_append]

/-! ### pieces -/

theorem fieldOf_injective : Function.Injective fieldOf := by
  rintro ⟨name, value⟩ ⟨name', value'⟩ h
  obtain ⟨hname, hvalue⟩ := Prod.mk.inj h
  obtain rfl : name = name' := String.toList_inj.mp hname
  obtain rfl : value = value' := escape_injective (String.toList_inj.mp hvalue)
  rfl

theorem map_fieldOf_inj {attrs attrs' : List Attr} (h : attrs.map fieldOf = attrs'.map fieldOf) :
    attrs = attrs' := List.map_injective_iff.mpr fieldOf_injective h

theorem contentMark_inj {raw raw' : List Char} (h : contentMark raw = contentMark raw') :
    raw = raw' := by
  have htext := congrArg (List.flatMap Mark.text) h
  rwa [text_contentMark, text_contentMark] at htext

variable {p q : Piece}

theorem pieceMarks_inj (hp : WellNamed p) (hq : WellNamed q) (h : pieceMarks p = pieceMarks q) :
    p = q := by
  have hhead := congrArg List.head? h
  cases p with
  | group attrs =>
    cases q with
    | group attrs' =>
      rw [map_fieldOf_inj (Mark.opening.inj (Option.some.inj hhead)).2]
    | text attrs' tail' content' =>
      exact absurd (Mark.opening.inj (Option.some.inj hhead)).1 (by decide)
    | _ => cases hhead
  | groupEnd =>
    cases q with
    | groupEnd => rfl
    | _ => cases hhead
  | leaf name attrs tail =>
    cases q with
    | leaf name' attrs' tail' =>
      obtain ⟨-, -, rfl⟩ := hp
      obtain ⟨-, -, rfl⟩ := hq
      obtain ⟨hname, hattrs⟩ := Mark.single.inj (Option.some.inj hhead)
      rw [String.toList_inj.mp hname, map_fieldOf_inj hattrs]
    | _ => cases hhead
  | text attrs tail content =>
    cases q with
    | text attrs' tail' content' =>
      obtain ⟨-, rfl⟩ := hp
      obtain ⟨-, rfl⟩ := hq
      have hcontent := contentMark_inj (List.append_cancel_right (List.cons.inj h).2)
      rw [map_fieldOf_inj (Mark.opening.inj (Option.some.inj hhead)).2,
        escape_injective (String.toList_inj.mp hcontent)]
    | group attrs' =>
      exact absurd (Mark.opening.inj (Option.some.inj hhead)).1 (by decide)
    | _ => cases hhead

theorem pieceText_inj (hp : WellNamed p) (hq : WellNamed q) :
    pieceText p = pieceText q ↔ p = q := by
  refine ⟨fun h => pieceMarks_inj hp hq ?_, congrArg pieceText⟩
  have hread := run_piece hp [] []
  rw [h, run_piece hq] at hread
  exact (Scan.mk.inj (Option.some.inj hread)).1.symm

end Markup

/-! ### elements -/

namespace Look

/-- the class that is written; an empty one is not -/
def shownClass (look : Look) : Option String := look.cls.filter fun c => !c.isEmpty

/-- nothing but attributes stands in the tag, and those of the style have names -/
def Plain (look : Look) : Prop := look.tail = "" ∧ Named look.style

/-- the names of attributes that identify an element -/
def identifying (a : Attr) : Bool := ["id", "class"].contains a.name

variable {a b : Look}

theorem identifying_of_mem {look : Look} {x : Attr} (h : x ∈ look.identity) :
    identifying x = true :=
  List.contains_iff_mem.mpr (look.names_identity.subset (List.mem_map_of_mem h))

theorem identity_inj : a.identity = b.identity ↔ a.id = b.id ∧ a.shownClass = b.shownClass := by
  have hparts : ∀ look : Look, look.identity = (look.id.map (Attr.mk "id")).toList ++
      (look.shownClass.map (Attr.mk "class")).toList := fun _ => rfl
  rw [hparts, hparts]
  cases a.id <;> cases b.id <;> cases a.shownClass <;> cases b.shownClass <;> simp

/-- the identity ends where the geometry begins -/
theorem attributes_inj {g : Attr} (geometry : List Attr) (hg : identifying g = false) :
    a.identity ++ g :: geometry ++ a.style = b.identity ++ g :: geometry ++ b.style ↔
      a.identity = b.identity ∧ a.style = b.style := by
  have hfront : ∀ (look : Look) (rest : List Attr),
      (look.identity ++ g :: rest).takeWhile identifying = look.identity := by
    intro look rest
    rw [List.takeWhile_append_of_pos fun x hx => identifying_of_mem hx,
      List.takeWhile_cons_of_neg (by simp [hg]), List.append_nil]
  constructor
  · intro h
    have hidentity := congrArg (List.takeWhile identifying) h
    rw [List.append_assoc, List.append_assoc, List.cons_append, List.cons_append, hfront, hfront]
      at hidentity
    rw [hidentity] at h
    exact ⟨hidentity, List.append_cancel_left h⟩
  · rintro ⟨hidentity, hstyle⟩
    rw [hidentity, hstyle]

/-- an element has a geometry, which begins with neither an id nor a class -/
theorem exists_geometry {name : String} {geometry : List Attr}
    (h : (name, geometry.map Attr.name) ∈ Element.forms) :
    ∃ g rest, geometry = g :: rest ∧ identifying g = false := by
  have hforms : ∀ form ∈ Element.forms, ∃ n ∈ form.2.head?, ["id", "class"].contains n = false := by
    decide
  obtain ⟨n, hn, hfree⟩ := hforms _ h
  rw [Option.mem_def, List.head?_map, Option.map_eq_some_iff] at hn
  obtain ⟨g, hg, rfl⟩ := hn
  obtain ⟨rest, rfl⟩ := List.head?_eq_some_iff.mp hg
  exact ⟨g, rest, rfl, hfree⟩

end Look

theorem groupOf_inj {a b : Look} : pieceText (.groupOf a) = pieceText (.groupOf b) ↔
    a.id = b.id ∧ a.shownClass = b.shownClass := by
  have hmade : ∀ look : Look, WellNamed (.groupOf look) := Look.named_identity
  rw [pieceText_inj (hmade a) (hmade b), ← Look.identity_inj, Piece.groupOf, Piece.groupOf,
    Piece.group.injEq]

section
variable {a b : Look} (ha : a.Plain) (hb : b.Plain)
include ha hb

/-- the markup of an element tells its id, its class and its style -/
theorem element_inj {name : String} {geometry : List Attr}
    (form : (name, geometry.map Attr.name) ∈ Element.forms) :
    pieceText (.element name a geometry) = pieceText (.element name b geometry) ↔
      a.id = b.id ∧ a.shownClass = b.shownClass ∧ a.style = b.style := by
  have hmade : ∀ {look : Look}, look.Plain → WellNamed (.element name look geometry) :=
    fun h => Piece.Made.wellNamed (fun _ => id) (fun _ => id) (.element form h.1 (.inr h.2))
  rw [pieceText_inj (hmade ha) (hmade hb), ← and_assoc, ← Look.identity_inj]
  obtain ⟨g, rest, rfl, hg⟩ := Look.exists_geometry form
  rw [← Look.attributes_inj rest hg, Piece.element, Piece.element, ha.1, hb.1]
  simp only [Piece.leaf.injEq, true_and, and_true]

/-- the markup of a label tells its text besides -/
theorem label_inj {places : Nat} {at' : Point} {anchor : Anchor} {s t : String} :
    pieceText (.label places a s at' anchor) = pieceText (.label places b t at' anchor) ↔
      s = t ∧ a.id = b.id ∧ a.shownClass = b.shownClass ∧ a.style = b.style := by
  have hmade : ∀ {look : Look} {content : String}, look.Plain →
      WellNamed (.label places look content at' anchor) :=
    fun h => Piece.Made.wellNamed (fun _ => id) (fun _ => id) (.label h.1 (.inr h.2))
  have hx : Look.identifying (Piece.number places "x" at'.x) = false := rfl
  rw [pieceText_inj (hmade ha) (hmade hb), ← and_assoc (a := a.id = b.id), ← Look.identity_inj,
    ← Look.attributes_inj _ hx, Piece.label, Piece.label, ha.1, hb.1]
  simp only [Piece.text.injEq, true_and]
  exact and_comm

end

/-- Escaped text holds no angle bracket and no quote, each of its ampersands starts one of the five
entities, and from left to right these stand for the text. So distinct texts are escaped to distinct
ones, and distinct labels, ids, classes and style values are written as distinct markup; and texts
may be escaped piece by piece. -/
theorem Markup.escape_lossless (s t : String) :
    (∀ c ∈ ['<', '>', '\x22', '\x27'], c ∉ (escape s).toList) ∧ Referenced (escape s).toList ∧
      unescape (escape s).toList = s.toList ∧ (escape s = escape t ↔ s = t) ∧
      escape (s ++ t) = escape s ++ escape t ∧
      (∀ p q : Piece, WellNamed p → WellNamed q → (pieceText p = pieceText q ↔ p = q)) ∧
      ∀ a b : Look, a.Plain → b.Plain →
        (pieceText (.groupOf a) = pieceText (.groupOf b) ↔
          a.id = b.id ∧ a.shownClass = b.shownClass) ∧
        (∀ (name : String) (geometry : List Attr), (name, geometry.map Attr.name) ∈ Element.forms →
          (pieceText (.element name a geometry) = pieceText (.element name b geometry) ↔
            a.id = b.id ∧ a.shownClass = b.shownClass ∧ a.style = b.style)) ∧
        ∀ (places : Nat) (at' : Point) (anchor : Anchor),
          (pieceText (.label places a s at' anchor) = pieceText (.label places b t at' anchor) ↔
            s = t ∧ a.id = b.id ∧ a.shownClass = b.shownClass ∧ a.style = b.style) := by
  refine ⟨?_, referenced_escape s, unescape_escape s, escape_injective.eq_iff, escape_append s t,
    fun p q => pieceText_inj, fun a b ha hb => ⟨groupOf_inj, fun name geometry => element_inj ha hb,
      fun places at' anchor => label_inj ha hb⟩⟩
  intro c hc
  simp only [List.mem_cons, List.not_mem_nil, or_false] at hc
  rcases hc with rfl | rfl | rfl | rfl <;> exact not_mem_escape (by decide) (by decide) s

theorem Markup.escape_lossless_entity :
    Look.Plain { id := some "txt:<" } ∧ Look.Plain { id := some "txt:&lt;" } ∧
      pieceText (.label 2 { id := some "txt:<" } "&" Point.origin .middle) ≠
        pieceText (.label 2 { id := some "txt:&lt;" } "&" Point.origin .middle) := by
  have ha : Look.Plain { id := some "txt:<" } := ⟨rfl, nofun⟩
  have hb : Look.Plain { id := some "txt:&lt;" } := ⟨rfl, nofun⟩
  obtain ⟨-, -, -, -, -, -, hlooks⟩ := Markup.escape_lossless "&" "&"
  obtain ⟨-, -, hlabel⟩ := hlooks _ _ ha hb
  exact ⟨ha, hb, fun h => absurd ((hlabel 2 Point.origin .middle).mp h).2.1 (by decide)⟩

end Figures
