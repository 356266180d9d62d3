import Figures.Proofs.Blueprint.Drawing
import Figures.Proofs.Blueprint.Keyed
import Figures.Proofs.Palette
import Mathlib.Data.List.Nodup

/-!
# The attributes in the tags of a blueprint

* `Piece.Distinct`                no attribute stands twice in the tag of a piece
* `Shape.Clashes`                 a drawn text whose style has an attribute that every label has
                                  already
* `Blueprint.distinct_scene_iff`  no tag of a blueprint has an attribute twice unless a shape
                                  clashes
* `Blueprint.distinct_image_iff`  the same, read off the text of the image
-/

namespace Figures

open Markup

def Piece.attrs : Piece → List Attr
  | .group attrs => attrs
  | .groupEnd => []
  | .leaf _ attrs _ => attrs
  | .text attrs _ _ => attrs

/-- no attribute stands twice in the start tag of a piece -/
def Piece.Distinct (p : Piece) : Prop := (p.attrs.map Attr.name).Nodup

/-! ### which attributes go together -/

theorem Look.nodup_identity (look : Look) : (look.identity.map Attr.name).Nodup :=
  look.names_identity.nodup (by decide)

/-- identity, geometry and style have no attribute in common if the geometry has none twice, and
shares none with identities and styles -/
theorem nodup_attrs {look : Look} {geometry : List Attr}
    (hgeometry : (geometry.map Attr.name).Nodup)
    (hidentity : ∀ n ∈ geometry.map Attr.name, n ∉ ["id", "class"])
    (hstyle : (look.style.map Attr.name).Nodup)
    (hnames : ∀ n ∈ look.style.map Attr.name, n ∈ Style.names)
    (hapart : ∀ n ∈ look.style.map Attr.name, n ∉ geometry.map Attr.name) :
    ((look.identity ++ geometry ++ look.style).map Attr.name).Nodup := by
  have hno : ∀ n ∈ Style.names, n ∉ ["id", "class"] := by decide
  rw [List.map_append, List.map_append, List.nodup_append, List.nodup_append]
  refine ⟨⟨look.nodup_identity, hgeometry, ?_⟩, hstyle, ?_⟩
  · rintro n hn _ hg rfl
    exact hidentity n hg (look.names_identity.subset hn)
  · rintro n hn _ hs rfl
    rcases List.mem_append.mp hn with hn | hn
    · exact hno n (hnames n hs) (look.names_identity.subset hn)
    · exact hapart n hs hn

theorem Element.forms_apart : ∀ form ∈ Element.forms,
    form.2.Nodup ∧ (∀ n ∈ form.2, n ∉ ["id", "class"]) ∧ ∀ n ∈ Style.names, n ∉ form.2 := by decide

/-- the attributes of a label that are also styles -/
def Element.labelStyles : List String := ["text-anchor", "dominant-baseline"]

theorem Element.labelForm_apart : Element.labelForm.Nodup ∧
    (∀ n ∈ Element.labelForm, n ∉ ["id", "class"]) ∧
      ∀ n ∈ Style.names, n ∈ Element.labelForm ↔ n ∈ Element.labelStyles := by decide

/-- a piece has no attribute twice if its style has none twice and only names styles, in a label
none that a label has already -/
theorem Piece.Made.distinct {S L : List Attr → Prop}
    (hS : ∀ style, S style → (style.map Attr.name).Nodup ∧
      ∀ n ∈ style.map Attr.name, n ∈ Style.names)
    (hL : ∀ style, L style → (style.map Attr.name).Nodup ∧
      ∀ n ∈ style.map Attr.name, n ∈ Style.names ∧ n ∉ Element.labelStyles)
    {p : Piece} (h : p.Made S L) : p.Distinct := by
  cases h with
  | start look => exact look.nodup_identity
  | finish => exact List.nodup_nil
  | @element name look geometry form tail style =>
    obtain ⟨hnodup, hidentity, happart⟩ := Element.forms_apart _ form
    obtain ⟨hstyle, hnames⟩ : (look.style.map Attr.name).Nodup ∧
        ∀ n ∈ look.style.map Attr.name, n ∈ Style.names := by
      rcases style with hnil | hst
      · rw [hnil]
        exact ⟨List.nodup_nil, fun n hn => absurd hn List.not_mem_nil⟩
      · exact hS _ hst
    exact nodup_attrs hnodup hidentity hstyle hnames fun n hn => happart n (hnames n hn)
  | @label places look content at' anchor tail style =>
    obtain ⟨hnodup, hidentity, happart⟩ := Element.labelForm_apart
    obtain ⟨hstyle, hnames⟩ : (look.style.map Attr.name).Nodup ∧
        ∀ n ∈ look.style.map Attr.name, n ∈ Style.names ∧ n ∉ Element.labelStyles := by
      rcases style with hnil | hst
      · rw [hnil]
        exact ⟨List.nodup_nil, fun n hn => absurd hn List.not_mem_nil⟩
      · exact hL _ hst
    exact nodup_attrs hnodup hidentity hstyle (fun n hn => (hnames n hn).1) fun n hn hform =>
      (hnames n hn).2 ((happart n (hnames n hn).1).mp hform)

/-- a label whose style has one of its own attributes has that attribute twice -/
theorem Piece.not_distinct_label {places : Nat} {look : Look} {content : String} {at' : Point}
    {anchor : Anchor} {a : Attr} (ha : a ∈ look.style) (hname : a.name ∈ Element.labelStyles) :
    ¬ (Piece.label places look content at' anchor).Distinct := by
  intro h
  have hform : a.name ∈ Element.labelForm := by
    have hsub : ∀ n ∈ Element.labelStyles, n ∈ Element.labelForm := by decide
    exact hsub a.name hname
  have hnodup : ((look.identity.map Attr.name ++ Element.labelForm) ++
      look.style.map Attr.name).Nodup := by
    simpa [Distinct, attrs, label, Element.labelForm, number] using h
  exact (List.nodup_append.mp hnodup).2.2 a.name (List.mem_append_right _ hform) a.name
    (List.mem_map_of_mem ha) rfl

/-! ### the style of a shape -/

namespace Subject

variable (s : Subject)

/-- what is kept of a style: the members of an object that have a text, and name a style -/
theorem mem_kept_iff (a : Attr) : a ∈ s.kept ↔
    ∃ members v, s.fields.get? "style" = some (.object members) ∧ (a.name, v) ∈ members ∧
      s.scope.text v = .ok a.value ∧ Style.objection? a.name a.value = none := by
  have htext : ∀ v, (s.scope.text v).toOption = some a.value ↔ s.scope.text v = .ok a.value := by
    intro v
    cases s.scope.text v <;> simp [Except.toOption]
  obtain ⟨name, value⟩ := a
  have hmem : ∀ members : List (String × Json),
      ⟨name, value⟩ ∈ ((((members.filterMap fun m =>
          (s.scope.text m.2).toOption.map fun t => (m.1, t)).filter fun m =>
            (Style.objection? m.1 m.2).isNone).map fun m => ⟨m.1, m.2⟩) : List Attr) ↔
        ∃ v, (name, v) ∈ members ∧ s.scope.text v = .ok value ∧
          Style.objection? name value = none := by
    intro members
    simp only [List.mem_map, List.mem_filter, List.mem_filterMap, Option.isNone_iff_eq_none,
      Option.map_eq_some_iff, Prod.exists, Prod.mk.injEq, Attr.mk.injEq]
    constructor
    · rintro ⟨_, _, ⟨⟨k, v, hm, t, ht, rfl, rfl⟩, hobj⟩, rfl, rfl⟩
      exact ⟨v, hm, (htext v).mp ht, hobj⟩
    · rintro ⟨v, hm, ht, hobj⟩
      exact ⟨name, value, ⟨⟨name, v, hm, value, (htext v).mpr ht, rfl, rfl⟩, hobj⟩, rfl, rfl⟩
  unfold kept Scope.style
  cases s.fields.get? "style" with
  | none => simp
  | some style =>
    cases style with
    | object members =>
      simp only [Option.getD_some, Option.some.injEq, Json.object.injEq, exists_and_left,
        exists_eq_left']
      exact hmem members
    | null | boolean | integer | real | text | list => simp

theorem nodup_kept (h : ∀ members, s.fields.get? "style" = some (.object members) →
    (members.map Prod.fst).Nodup) : (s.kept.map Attr.name).Nodup := by
  have hsub : ∀ members : List (String × Json),
      ((members.filterMap fun m => (s.scope.text m.2).toOption.map fun t => (m.1, t)).map
        Prod.fst).Sublist (members.map Prod.fst) := by
    intro members
    induction members with
    | nil => exact List.Sublist.refl _
    | cons m members ih =>
      cases ht : (s.scope.text m.2).toOption with
      | none =>
        rw [List.filterMap_cons_none (by rw [ht]; rfl)]
        exact ih.cons m.1
      | some t =>
        rw [List.filterMap_cons_some (by rw [ht]; rfl)]
        exact ih.cons_cons m.1
  unfold kept Scope.style
  rw [List.map_map]
  cases hstyle : s.fields.get? "style" with
  | none => exact List.nodup_nil
  | some style =>
    cases style with
    | object members =>
      exact (h members hstyle).sublist ((List.filter_sublist.map _).trans (hsub members))
    | null | boolean | integer | real | text | list => exact List.nodup_nil

end Subject

/-! ### shapes -/

namespace Shape

/-- a text that is drawn, and whose style sets an attribute that every label has already -/
def Clashes (item : Shape) (scope : Scope) (pen : Pen) (name : String) : Prop :=
  item.kind = "text" ∧ (item.render scope pen name).1 ≠ [] ∧
    ∃ members key v t, item.fields.get? "style" = some (.object members) ∧ (key, v) ∈ members ∧
      key ∈ Element.labelStyles ∧ scope.text v = .ok t ∧
      Style.localReferences (t.toList.map Char.toLower) = true

theorem kind_eq_text_iff (s : String) : ShapeKind.ofName? s = some .text ↔ s = "text" := by
  constructor
  · intro h
    have hname := List.find?_some (p := fun k : ShapeKind => k.name == s) h
    exact (eq_of_beq hname).symm
  · rintro rfl
    decide

theorem objection?_eq_none_iff {key value : String} (h : key ∈ Element.labelStyles) :
    Style.objection? key value = none ↔
      Style.localReferences (value.toList.map Char.toLower) = true := by
  have hnames : ∀ k ∈ Element.labelStyles, Style.names.contains k = true := by decide
  simp only [Style.objection?, hnames key h, Bool.not_true, Bool.false_eq_true, if_false]
  split <;> simp_all

/-- a drawn text clashes if something that every label has is kept of its style -/
theorem clashes_iff {item : Shape} {scope : Scope} {pen : Pen} {name : String} :
    item.Clashes scope pen name ↔ item.kind = "text" ∧ (item.render scope pen name).1 ≠ [] ∧
      ∃ a ∈ Subject.kept ⟨scope, name, item.fields⟩, a.name ∈ Element.labelStyles := by
  refine and_congr_right fun _ => and_congr_right fun _ => ?_
  constructor
  · rintro ⟨members, key, v, t, hstyle, hmem, hkey, ht, href⟩
    exact ⟨⟨key, t⟩, (Subject.mem_kept_iff _ _).mpr
      ⟨members, v, hstyle, hmem, ht, (objection?_eq_none_iff hkey).mpr href⟩, hkey⟩
  · rintro ⟨a, ha, hname⟩
    obtain ⟨members, v, hstyle, hmem, ht, hobj⟩ := (Subject.mem_kept_iff _ _).mp ha
    exact ⟨members, a.name, v, a.value, hstyle, hmem, hname, ht,
      (objection?_eq_none_iff hname).mp hobj⟩

theorem distinct_render_iff {item : Shape} (hitem : item.Keyed) (scope : Scope) (pen : Pen)
    (name : String) :
    (∀ p ∈ (item.render scope pen name).1, p.Distinct) ↔ ¬ item.Clashes scope pen name := by
  have hkept : ∀ style, style = Subject.kept ⟨scope, name, item.fields⟩ →
      (style.map Attr.name).Nodup ∧ ∀ n ∈ style.map Attr.name, n ∈ Style.names := by
    rintro _ rfl
    refine ⟨Subject.nodup_kept _ fun members h => hitem "style" _ h members rfl, fun n hn => ?_⟩
    obtain ⟨a, ha, rfl⟩ := List.mem_map.mp hn
    exact Subject.mem_names_of_mem_kept ha
  rw [clashes_iff]
  rcases item.render_cases scope pen name with hnil | ⟨kind, notes, notes', hkind, hrun⟩
  · simp [hnil]
  constructor
  · rintro hdistinct ⟨htext, -, a, ha, hname⟩
    obtain rfl : kind = .text :=
      Option.some.inj (hkind.symm.trans ((kind_eq_text_iff _).mpr htext))
    obtain ⟨content, at', anchor, cls, heq⟩ :=
      Subject.yields_text ⟨scope, name, item.fields⟩ pen notes _ notes' hrun
    rw [heq] at hdistinct
    exact Piece.not_distinct_label ha hname (hdistinct _ List.mem_cons_self)
  · intro hclash p hp
    have hdrawn := Subject.yields_draw ⟨scope, name, item.fields⟩ pen kind notes _ notes' hrun
    refine (hdrawn.made p hp).distinct hkept fun style hst => ?_
    obtain ⟨rfl, hstyle⟩ := hst
    refine ⟨(hkept style hstyle).1, fun n hn => ⟨(hkept style hstyle).2 n hn, fun hlabel => ?_⟩⟩
    obtain ⟨a, ha, rfl⟩ := List.mem_map.mp hn
    exact hclash ⟨(kind_eq_text_iff _).mp hkind, List.ne_nil_of_mem hp, a, hstyle ▸ ha, hlabel⟩

end Shape

/-! ### documents -/

namespace Markup

/-- no attribute stands twice in a tag -/
def Mark.Distinct (mark : Mark) : Prop := (mark.fields.map Prod.fst).Nodup

theorem distinct_fields_iff (attrs : List Attr) :
    (((attrs.map fieldOf).map Prod.fst).Nodup) ↔ (attrs.map Attr.name).Nodup := by
  have hnames : (attrs.map fieldOf).map Prod.fst = (attrs.map Attr.name).map String.toList := by
    simp [fieldOf]
  rw [hnames, List.nodup_map_iff fun a b => String.toList_inj.mp]

theorem fields_of_mem_pieceMarks_eq {p : Piece} {mark : Mark} (h : mark ∈ pieceMarks p) :
    mark.fields = [] ∨ mark.fields = p.attrs.map fieldOf := by
  cases p with
  | group attrs =>
    obtain rfl := List.mem_singleton.mp h
    exact .inr rfl
  | groupEnd =>
    obtain rfl := List.mem_singleton.mp h
    exact .inl rfl
  | leaf name attrs tail =>
    obtain rfl := List.mem_singleton.mp h
    exact .inr rfl
  | text attrs tail content =>
    simp only [pieceMarks, List.mem_cons, List.mem_append, List.not_mem_nil, or_false] at h
    rcases h with rfl | h | rfl
    · exact .inr rfl
    · rw [mem_contentMark h]
      exact .inl rfl
    · exact .inl rfl

theorem exists_start_mem_pieceMarks (p : Piece) :
    ∃ mark ∈ pieceMarks p, mark.fields = p.attrs.map fieldOf := by
  cases p with
  | group attrs => exact ⟨_, List.mem_cons_self, rfl⟩
  | groupEnd => exact ⟨_, List.mem_cons_self, rfl⟩
  | leaf name attrs tail => exact ⟨_, List.mem_cons_self, rfl⟩
  | text attrs tail content => exact ⟨_, List.mem_cons_self, rfl⟩

theorem distinct_pieceMarks_iff (p : Piece) :
    (∀ mark ∈ pieceMarks p, mark.Distinct) ↔ p.Distinct := by
  constructor
  · intro h
    obtain ⟨mark, hmark, hfields⟩ := exists_start_mem_pieceMarks p
    have hmarkDistinct := h mark hmark
    rw [Mark.Distinct, hfields] at hmarkDistinct
    exact (distinct_fields_iff p.attrs).mp hmarkDistinct
  · intro h mark hmark
    rcases fields_of_mem_pieceMarks_eq hmark with hfields | hfields
    · rw [Mark.Distinct, hfields]
      exact List.nodup_nil
    · rw [Mark.Distinct, hfields]
      exact (distinct_fields_iff p.attrs).mpr h

theorem mem_bodyMarks_of_mem {layout : Layout} {styles : List String} {d : Drawing} {p : Piece}
    (hp : p ∈ d) {mark : Mark} (h : mark ∈ pieceMarks p) : mark ∈ bodyMarks layout styles d := by
  rw [← map_snd_placed 1 d] at hp
  obtain ⟨l, hl, rfl⟩ := List.mem_map.mp hp
  exact List.mem_append_left _ (List.mem_append_right _
    (List.mem_flatMap.mpr ⟨l, hl, List.mem_append_right _ h⟩))

theorem distinct_documentMarks_iff (layout : Layout) (width height : Float) (styles : List String)
    (d : Drawing) :
    (∀ mark ∈ documentMarks layout width height styles d, mark.Distinct) ↔ ∀ p ∈ d, p.Distinct := by
  constructor
  · intro h p hp
    refine (distinct_pieceMarks_iff p).mp fun mark hmark => h mark ?_
    exact List.mem_append_right _ (List.mem_cons_of_mem _
      (List.mem_append_left _ (mem_bodyMarks_of_mem hp hmark)))
  · intro h mark hmark
    rcases mem_documentMarks hmark with rfl | rfl | rfl | hmark | rfl
    · exact List.nodup_nil
    · exact List.nodup_nil
    · exact (by decide : ["xmlns".toList, "width".toList, "height".toList, "viewBox".toList].Nodup)
    · rcases mem_bodyMarks hmark with rfl | rfl | rfl | ⟨level, rfl⟩ | ⟨p, hp, hpiece⟩
      · exact List.nodup_nil
      · exact List.nodup_nil
      · exact List.nodup_nil
      · exact List.nodup_nil
      · exact (distinct_pieceMarks_iff p).mpr (h p hp) mark hpiece
    · exact List.nodup_nil

end Markup

/-! ### blueprints -/

def Blueprint.Clashes (b : Blueprint) (scope : Scope) (pen : Pen) : Prop :=
  ∃ layer ∈ b.layers, ∃ e ∈ layer.named, e.2.Clashes scope pen e.1

theorem distinct_group_iff (name : String) (d : Drawing) :
    (∀ p ∈ Pen.group name d, p.Distinct) ↔ ∀ p ∈ d, p.Distinct := by
  constructor
  · intro h p hp
    exact h p (List.mem_append_left _ (List.mem_cons_of_mem _ hp))
  · intro h p hp
    simp only [Pen.group, List.mem_cons, List.mem_append, List.not_mem_nil, or_false] at hp
    rcases hp with (rfl | hp) | rfl
    · exact Look.nodup_identity _
    · exact h p hp
    · exact List.nodup_nil

theorem Layer.item_of_mem_named {layer : Layer} {e : String × Shape} (h : e ∈ layer.named) :
    e.2 ∈ layer.items := by
  obtain ⟨⟨item, index⟩, hi, rfl⟩ := List.mem_map.mp h
  exact List.fst_mem_of_mem_zipIdx hi

theorem Layer.distinct_drawing_iff {layer : Layer} (h : layer.Keyed)
    (scope : Scope) (pen : Pen) :
    (∀ p ∈ layer.drawing scope pen, p.Distinct) ↔
      ∀ e ∈ layer.named, ¬ e.2.Clashes scope pen e.1 := by
  have hitem : ∀ e ∈ layer.named,
      (∀ p ∈ (e.2.render scope pen e.1).1, p.Distinct) ↔ ¬ e.2.Clashes scope pen e.1 :=
    fun e he => Shape.distinct_render_iff (h e.2 (item_of_mem_named he)) scope pen e.1
  rw [Layer.drawing, distinct_group_iff]
  constructor
  · intro hall e he
    refine (hitem e he).mp fun p hp => hall p ?_
    exact List.mem_flatMap.mpr ⟨e.2.render scope pen e.1, List.mem_map_of_mem he, hp⟩
  · intro hall p hp
    obtain ⟨r, hr, hpr⟩ := List.mem_flatMap.mp hp
    obtain ⟨e, he, rfl⟩ := List.mem_map.mp hr
    exact (hitem e he).mpr (hall e he) p hpr

namespace Blueprint

variable {b : Blueprint} (hb : b.Keyed) (scope : Scope)
include hb

theorem distinct_scene_iff (pen : Pen) :
    (∀ p ∈ (b.scene scope pen).drawing, p.Distinct) ↔ ¬ b.Clashes scope pen := by
  have hmem : ∀ layer, layer ∈ b.ordered ↔ layer ∈ b.layers := fun layer => List.mem_mergeSort
  constructor
  · rintro hall ⟨layer, hlayer, e, he, hclash⟩
    refine (Layer.distinct_drawing_iff (hb layer hlayer) scope pen).mp (fun p hp => ?_) e he hclash
    exact hall p (List.mem_flatMap.mpr ⟨layer, (hmem layer).mpr hlayer, hp⟩)
  · intro hnone p hp
    obtain ⟨layer, hlayer, hp⟩ := List.mem_flatMap.mp hp
    rw [hmem] at hlayer
    exact (Layer.distinct_drawing_iff (hb layer hlayer) scope pen).mpr
      (fun e he hclash => hnone ⟨layer, hlayer, e, he, hclash⟩) p hp

theorem distinct_root_iff (pen : Pen) :
    (∀ p ∈ Pen.group "blueprint" (b.scene scope pen).drawing, p.Distinct) ↔ ¬ b.Clashes scope pen :=
  (distinct_group_iff "blueprint" (b.scene scope pen).drawing).trans
    (distinct_scene_iff hb scope pen)

omit hb in
theorem read_image {ctx : Context} (hplain : ctx.palette.Plain) :
    read? (b.image scope ctx).svg
      = some (documentMarks ctx.layout b.viewBox.width b.viewBox.height [ctx.palette.styleBlock]
          (Pen.group "blueprint" (b.scene scope (Pen.of ctx)).drawing)) := by
  rw [image_eq]
  refine read_document ctx.layout _ _ (fun rules hrules hc => ?_) ?_
  · obtain rfl := List.mem_singleton.mp hrules
    exact (Palette.plain_styleBlock hplain).not_mem rfl hc
  · exact ((Drawn.group (b.drawn_scene scope (Pen.of ctx)) "blueprint").sound (fun _ h => h)
      fun _ h => h).named

/-- no tag of a blueprint has an attribute twice if and only if no shape of it clashes; read off the
text of the image wherever the style rules are no markup -/
theorem distinct_image_iff (ctx : Context) :
    ((∀ p ∈ Pen.group "blueprint" (b.scene scope (Pen.of ctx)).drawing, p.Distinct) ↔
        ¬ b.Clashes scope (Pen.of ctx)) ∧
      (ctx.palette.Plain → ∃ marks, read? (b.image scope ctx).svg = some marks ∧
        ((∀ mark ∈ marks, mark.Distinct) ↔ ¬ b.Clashes scope (Pen.of ctx))) := by
  have hpieces := distinct_root_iff hb scope (Pen.of ctx)
  exact ⟨hpieces, fun hplain =>
    ⟨_, read_image scope hplain, (distinct_documentMarks_iff _ _ _ _ _).trans hpieces⟩⟩

end Blueprint

/-! ### a text that clashes -/

def Shape.anchored : Shape where
  id := "t"
  kind := "text"
  fields := Dict.ofList
    [("at", .object [("x", .integer 1), ("y", .integer 2)]),
     ("style", .object [("text-anchor", .text "end")]), ("text", .text "T")]

namespace Blueprint

def anchored : Blueprint := ⟨1, ⟨100.0, 100.0⟩, [⟨"l", 0.0, [Shape.anchored]⟩]⟩

theorem keyed_anchored : anchored.Keyed :=
  keyed_decoder .value (Document.ofJson anchored.toJson) anchored rfl

theorem clashes_anchored (scope : Scope) (pen : Pen) : anchored.Clashes scope pen := by
  refine ⟨_, List.mem_cons_self, ("t", Shape.anchored), List.mem_cons_self, rfl, ?_,
    [("text-anchor", .text "end")], "text-anchor", .text "end", "end", rfl, List.mem_cons_self,
    List.mem_cons_self, rfl, rfl⟩
  intro hnil
  cases hnil

/-- the general theorem at that blueprint: its tags are not distinct -/
theorem distinct_image_iff_anchored :
    anchored.Keyed ∧ ¬ ∀ p ∈ Pen.group "blueprint" (anchored.scene ⟨.null⟩ (Pen.of {})).drawing,
      p.Distinct :=
  ⟨keyed_anchored, fun h => (distinct_image_iff keyed_anchored ⟨.null⟩ {}).1.mp h
    (clashes_anchored ⟨.null⟩ (Pen.of {}))⟩

/-- the text of its image has a tag with an attribute twice -/
theorem repeated_anchored : ∃ marks, read? (anchored.image ⟨.null⟩ {}).svg = some marks ∧
    ¬ ∀ mark ∈ marks, mark.Distinct := by
  refine ⟨_, read_image ⟨.null⟩ Palette.plain_standard, fun hall => ?_⟩
  refine (distinct_root_iff keyed_anchored ⟨.null⟩ (Pen.of {})).mp ?_
    (clashes_anchored ⟨.null⟩ (Pen.of {}))
  exact (distinct_documentMarks_iff _ _ _ _ _).mp hall

end Blueprint

end Figures
