import Figures.Proofs.Blueprint.Drawing
import Figures.Proofs.Formula.Words
import Figures.Proofs.Sheet.Words

/-!
# The words of blueprints

* `Subject.Worded`            the scope, the name and the fields of a shape have allowed characters
                              and given ones only
* `Subject.yields_worded`     so has its drawing: texts of fields are values of the scope, numbers,
                              or texts of the formulas
* `Blueprint.worded_scene`    so has the drawing of a blueprint
-/

namespace Figures

variable {given : List Char}

/-- the scope, the name and the fields of a shape have allowed characters and given ones only -/
structure Subject.Worded (given : List Char) (s : Subject) : Prop where
  scope : s.scope.values.Worded given
  name : Spelled given s.name
  field : ∀ key v, s.fields.get? key = some v → v.Worded given

namespace Subject

variable {s : Subject} (h : s.Worded given) (pen : Pen)
include h

theorem yields_text? (field : String) :
    Yields (fun text => ∀ t, text = some t → Spelled given t) (s.text? field) := by
  unfold text?
  split
  · rename_i v hv
    have hsettle : Yields (Spelled given) (settle field "" (s.scope.text v)) := by
      cases htext : s.scope.text v with
      | ok t => exact .pure (Scope.spelled_text h.scope (h.field _ v hv) t htext)
      | error u => exact .bind fun _ => .pure spelled_empty
    refine .bind_of hsettle fun t ht => .pure ?_
    rintro _ ⟨⟩
    exact ht
  · exact .pure nofun

theorem yields_cls {fallback : String} (hfallback : Allowed fallback) :
    Yields (Spelled given) (s.cls fallback) := by
  refine .bind_of (yields_text? h "class") fun text ht => .pure ?_
  cases hkept : text.filter fun c => !Text.isBlank c with
  | none => exact spelled_of_allowed hfallback
  | some c => exact ht c (Option.filter_eq_some_iff.mp hkept).1

/-- style attributes have names of their own and the texts of their members -/
theorem spelled_kept : ∀ w ∈ s.kept.flatMap Attr.words, Spelled given w := by
  intro w hw
  obtain ⟨a, ha, hwa⟩ := List.mem_flatMap.mp hw
  have hname : Allowed a.name := by
    have hnames : ∀ n ∈ Style.names, Allowed n := by decide
    exact hnames _ (mem_names_of_mem_kept ha)
  have hvalue : Spelled given a.value := by
    obtain ⟨m, hm, rfl⟩ := List.mem_map.mp ha
    have hm := (List.mem_filter.mp hm).1
    unfold Scope.style at hm
    split at hm
    · rename_i members hmembers
      obtain ⟨e, he, hsome⟩ := List.mem_filterMap.mp hm
      obtain ⟨t, ht, rfl⟩ := Option.map_eq_some_iff.mp hsome
      have hstyle : (Json.object members).Worded given := by
        cases hget : s.fields.get? "style" with
        | none =>
          rw [hget] at hmembers
          cases hmembers
        | some v =>
          rw [hget] at hmembers
          exact hmembers ▸ h.field _ v hget
      refine Scope.spelled_text h.scope (Json.worded_object_iff.mp hstyle e he).2 t ?_
      cases htext : s.scope.text e.2 with
      | ok u =>
        rw [htext] at ht
        exact congrArg Except.ok (Option.some.inj ht)
      | error u =>
        rw [htext] at ht
        cases ht
    · exact absurd hm List.not_mem_nil
  rcases List.mem_cons.mp hwa with rfl | hwa
  · exact spelled_of_allowed hname
  · exact List.mem_singleton.mp hwa ▸ hvalue

theorem yields_style_words :
    Yields (fun style => ∀ w ∈ style.flatMap Attr.words, Spelled given w) s.style :=
  s.yields_style.mono fun _ heq => heq ▸ spelled_kept h

/-- where the class and the style are read last, it is enough that both are spelled -/
theorem yields_worded_looks {fallback : String} (hfallback : Allowed fallback)
    {draw : String → List Attr → Drawing}
    (hdraw : ∀ cls style, Spelled given cls → (∀ w ∈ style.flatMap Attr.words, Spelled given w) →
      Figures.Worded given (draw cls style)) :
    Yields (Figures.Worded given)
      (s.cls fallback >>= fun cls => s.style >>= fun style => pure (draw cls style)) :=
  .bind_of (yields_cls h hfallback) fun cls hcls =>
    .bind_of (yields_style_words h) fun style hstyle => .pure (hdraw cls style hcls hstyle)

end Subject

theorem Pen.worded_arrow (pen : Pen) {name cls : String} (hname : Spelled given name) (a b : Point)
    (head : Float) (hcls : Spelled given cls) {style : List Attr}
    (hstyle : ∀ w ∈ style.flatMap Attr.words, Spelled given w) :
    Worded given (pen.arrow name a b head cls style) := by
  refine worded_cons_iff.mpr ⟨worded_line pen.places (worded_named hname hcls hstyle) a b,
    List.forall_mem_singleton.mpr (Figures.worded_polygon pen.places
      (worded_look ?_ (by decide)) _)⟩
  exact spelled_append.mpr ⟨hname, spelled_of_allowed (by decide)⟩

theorem Pen.worded_gridLines (pen : Pen) (corner : Point) (width height step : Float) {look : Look}
    (h : look.Worded given) : Worded given (pen.gridLines corner width height step look) := by
  refine worded_append_iff.mpr ⟨?_, ?_⟩
  · exact List.forall_mem_map.mpr fun i _ => worded_line pen.places h _ _
  · exact List.forall_mem_map.mpr fun j _ => worded_line pen.places h _ _

namespace Subject

variable {s : Subject} (h : s.Worded given) (pen : Pen)
include h

theorem Worded.look (e : Element) {cls : String} (hcls : Spelled given cls) {style : List Attr}
    (hstyle : ∀ w ∈ style.flatMap Attr.words, Spelled given w) :
    (e.styled s.name cls style).Worded given :=
  worded_named h.name hcls hstyle

theorem worded_drawLine : Yields (Figures.Worded given) (s.drawLine pen) := by
  refine .bind fun a => .bind fun b =>
    yields_worded_looks h (by decide) fun cls style hcls hstyle => ?_
  exact List.forall_mem_singleton.mpr (worded_line pen.places (h.look _ hcls hstyle) a b)

theorem worded_drawPolyline : Yields (Figures.Worded given) (s.drawPolyline pen) := by
  refine .bind fun points => .bind_of (yields_style_words h) fun style hstyle =>
    .bind_of (yields_cls h (by decide)) fun cls hcls => .pure ?_
  exact List.forall_mem_singleton.mpr (worded_polyline pen.places (h.look _ hcls hstyle) points)

theorem worded_drawPolygon : Yields (Figures.Worded given) (s.drawPolygon pen) := by
  refine .bind fun points => .bind_of (yields_style_words h) fun style hstyle =>
    .bind_of (yields_cls h (by decide)) fun cls hcls => .pure ?_
  exact List.forall_mem_singleton.mpr (worded_polygon pen.places (h.look _ hcls hstyle) points)

theorem worded_drawRect : Yields (Figures.Worded given) (s.drawRect pen) := by
  refine .bind fun x => .bind fun y => .bind fun width => .bind fun height =>
    yields_worded_looks h (by decide) fun cls style hcls hstyle => ?_
  exact List.forall_mem_singleton.mpr
    (worded_rect pen.places (h.look _ hcls hstyle) ⟨x, y⟩ width height)

theorem worded_drawCircle : Yields (Figures.Worded given) (s.drawCircle pen) := by
  refine .bind fun center => .bind fun r =>
    yields_worded_looks h (by decide) fun cls style hcls hstyle => ?_
  exact List.forall_mem_singleton.mpr (worded_circle pen.places (h.look _ hcls hstyle) center r)

theorem worded_drawEllipse : Yields (Figures.Worded given) (s.drawEllipse pen) := by
  refine .bind fun center => .bind fun rx => .bind fun ry =>
    yields_worded_looks h (by decide) fun cls style hcls hstyle => ?_
  exact List.forall_mem_singleton.mpr
    (worded_ellipse pen.places (h.look _ hcls hstyle) center rx ry)

theorem worded_drawText : Yields (Figures.Worded given) (s.drawText pen) := by
  refine .bind fun p => .bind_of (yields_text? h "text") fun text htext => ?_
  cases text with
  | none => exact .throw _
  | some content =>
    refine .bind fun anchor => yields_worded_looks h (by decide) fun cls style hcls hstyle => ?_
    exact List.forall_mem_singleton.mpr
      (worded_label pen.places (h.look _ hcls hstyle) (htext content rfl) p anchor)

theorem worded_drawArrow : Yields (Figures.Worded given) (s.drawArrow pen) := by
  refine .bind fun a => .bind fun b => .bind fun head =>
    yields_worded_looks h (by decide) fun cls style hcls hstyle => ?_
  exact pen.worded_arrow h.name a b head hcls hstyle

theorem worded_drawArc : Yields (Figures.Worded given) (s.drawArc pen) := by
  refine .bind fun center => .bind fun r => .bind fun first => .bind fun last =>
    yields_worded_looks h (by decide) fun cls style hcls hstyle => ?_
  exact List.forall_mem_singleton.mpr (worded_path pen.places (h.look _ hcls hstyle) _)

omit h in
/-- the mark of an angle has its label, or a number of degrees -/
theorem spelled_angleText (arc : AngleArc) (showDegrees : Bool) {label : Option String}
    (hlabel : ∀ t, label = some t → Spelled given t) :
    Spelled given (angleText arc showDegrees label) := by
  unfold angleText
  cases hkept : label.filter fun t => !t.isEmpty with
  | some t => exact hlabel t (Option.filter_eq_some_iff.mp hkept).1
  | none =>
    rw [Option.getD_none]
    split
    · exact spelled_append.mpr ⟨spelled_tidy 1 _, spelled_of_allowed (by decide)⟩
    · exact spelled_empty

theorem worded_drawAngleMarker : Yields (Figures.Worded given) (s.drawAngleMarker pen) := by
  refine .bind fun vertex => .bind fun p => .bind fun q => .bind fun r => .bind fun degrees =>
    .bind_of (yields_text? h "label") fun label hlabel =>
    yields_worded_looks h (by decide) fun cls style hcls hstyle => ?_
  exact worded_cons_iff.mpr ⟨worded_path pen.places (h.look _ hcls hstyle) _,
    pen.worded_text h.name (spelled_angleText _ degrees hlabel) (by decide) _ _⟩

theorem worded_drawTickMark : Yields (Figures.Worded given) (s.drawTickMark pen) := by
  refine .bind fun a => .bind fun b => .bind fun t => .bind fun count => .bind fun size =>
    yields_worded_looks h (by decide) fun cls style hcls hstyle => ?_
  exact List.forall_mem_singleton.mpr (worded_path pen.places (h.look _ hcls hstyle) _)

theorem worded_drawGrid : Yields (Figures.Worded given) (s.drawGrid pen) := by
  refine .bind fun x => .bind fun y => .bind fun width => .bind fun height => .bind fun step => ?_
  refine .ite (.bind fun _ => ?_) ?_
  all_goals
    refine yields_worded_looks h (by decide) fun cls style hcls hstyle => ?_
    refine worded_group_iff.mpr ⟨h.name, pen.worded_gridLines _ _ _ _ ⟨nofun, ?_, hstyle,
      spelled_empty⟩⟩
    rintro _ ⟨⟩
    exact hcls

theorem worded_drawAxes : Yields (Figures.Worded given) (s.drawAxes pen) := by
  refine .bind fun o => .bind fun xLength => .bind fun yLength =>
    .bind_of (yields_text? h "xLabel") fun xLabel hx =>
    .bind_of (yields_text? h "yLabel") fun yLabel hy =>
    yields_worded_looks h (by decide) fun cls style hcls hstyle => ?_
  have hend : ∀ {tail : String}, Allowed tail → Spelled given (s.name ++ tail) := fun htail =>
    spelled_append.mpr ⟨h.name, spelled_of_allowed htail⟩
  have hlabel : ∀ label : Option String, (∀ t, label = some t → Spelled given t) →
      Spelled given (label.getD "") := by
    rintro (_ | t) ht
    · exact spelled_empty
    · exact ht t rfl
  refine worded_group_iff.mpr ⟨h.name, worded_append_iff.mpr ⟨worded_append_iff.mpr
    ⟨worded_append_iff.mpr ⟨?_, ?_⟩, ?_⟩, ?_⟩⟩
  · exact pen.worded_arrow (hend (by decide)) _ _ _ hcls hstyle
  · exact pen.worded_arrow (hend (by decide)) _ _ _ hcls hstyle
  · exact pen.worded_text (hend (by decide)) (hlabel _ hx) (by decide) _ _
  · exact pen.worded_text (hend (by decide)) (hlabel _ hy) (by decide) _ _

/-- a shape writes its name, its class, its style, its texts, and words of its own -/
theorem yields_worded (kind : ShapeKind) : Yields (Figures.Worded given) (s.draw pen kind) := by
  cases kind with
  | line => exact worded_drawLine h pen
  | polyline => exact worded_drawPolyline h pen
  | polygon => exact worded_drawPolygon h pen
  | rect => exact worded_drawRect h pen
  | circle => exact worded_drawCircle h pen
  | ellipse => exact worded_drawEllipse h pen
  | text => exact worded_drawText h pen
  | arrow => exact worded_drawArrow h pen
  | arc => exact worded_drawArc h pen
  | angleMarker => exact worded_drawAngleMarker h pen
  | tickMark => exact worded_drawTickMark h pen
  | grid => exact worded_drawGrid h pen
  | axes => exact worded_drawAxes h pen

end Subject

/-! ### blueprints -/

theorem Shape.worded_render {scope : Scope} {name : String} {item : Shape}
    (h : Subject.Worded given ⟨scope, name, item.fields⟩) (pen : Pen) :
    Worded given (item.render scope pen name).1 := by
  rcases item.render_cases scope pen name with hnil | ⟨kind, notes, notes', -, hrun⟩
  · rw [hnil]
    exact worded_nil
  · exact Subject.yields_worded h pen kind notes _ notes' hrun

theorem Layer.worded_drawing {scope : Scope} (hscope : scope.values.Worded given) (pen : Pen)
    {layer : Layer} (h : layer.toJson.Worded given) : Worded given (layer.drawing scope pen) := by
  have hmembers := Json.worded_object_iff.mp h
  have hid : Spelled given layer.id := Json.worded_text_iff.mp (hmembers _ List.mem_cons_self).2
  have hitems : ∀ item ∈ layer.items, item.toJson.Worded given :=
    List.forall_mem_map.mp (Json.worded_list_iff.mp (hmembers ("items", _) (by simp)).2)
  refine worded_group_iff.mpr ⟨hid, worded_flatMap_iff.mpr fun r hr => ?_⟩
  obtain ⟨e, he, rfl⟩ := List.mem_map.mp hr
  obtain ⟨k, hk, rfl⟩ := List.mem_map.mp he
  have hitem := Json.worded_object_iff.mp (hitems k.1 (List.fst_mem_of_mem_zipIdx hk))
  have hname : Spelled given (layer.nameOf k.2 k.1) := by
    unfold nameOf
    split
    · simp +decide [toString, hid]
    · exact Json.worded_text_iff.mp (hitem _ List.mem_cons_self).2
  refine Shape.worded_render ⟨hscope, hname, fun key v hv => ?_⟩ pen
  exact (hitem (key, v) (List.mem_cons_of_mem _ (List.mem_cons_of_mem _ (Dict.mem_of_get? hv)))).2

theorem Blueprint.worded_scene {b : Blueprint} {scope : Scope} (hscope : scope.values.Worded given)
    (h : b.toJson.Worded given) (pen : Pen) :
    Worded given (Pen.group (b.scene scope pen).root (b.scene scope pen).drawing) := by
  have hlayers : ∀ layer ∈ b.layers, layer.toJson.Worded given :=
    List.forall_mem_map.mp (Json.worded_list_iff.mp (Json.worded_object_iff.mp h ("layers", _)
      (by simp)).2)
  refine worded_group_iff.mpr ⟨spelled_of_allowed (by decide : Allowed "blueprint"),
    worded_flatMap_iff.mpr fun layer hlayer => ?_⟩
  exact layer.worded_drawing hscope pen (hlayers layer (List.mem_mergeSort.mp hlayer))

end Figures
