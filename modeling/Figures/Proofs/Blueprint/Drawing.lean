import Figures.Proofs.Blueprint.Scene
import Figures.Proofs.Sheet.Drawn

/-!
# What shapes are drawn with

* `Reading.run_bind`      one reading behind another
* `Yields P x`            what comes of reading fields satisfies `P`
* `Subject.kept`          the style attributes of a shape that are written
* `Subject.yields_draw`   a shape is drawn with groups, elements and labels; whatever has a style
                          has the one that is kept
* `Subject.yields_text`   a text is drawn as one label, with that style
* `Blueprint.drawn_scene` a blueprint is drawn with groups, elements and labels
* `Blueprint.image_eq`    its image, written shape by shape on one canvas, is that of its scene
-/

namespace Figures

open Markup

/-- one reading behind another starts with what the first has noted, unless the first has failed -/
theorem Reading.run_bind {α β : Type} (x : Reading α) (f : α → Reading β) (notes : List Note) :
    (x >>= f).run.run notes = match x.run.run notes with
      | (.ok a, mid) => (f a).run.run mid
      | (.error e, mid) => (.error e, mid) := by
  simp only [ExceptT.run_bind, StateT.run_bind]
  rcases x.run.run notes with ⟨_ | a, mid⟩ <;> rfl

/-- what comes of reading fields satisfies `P` -/
def Yields {α : Type} (P : α → Prop) (x : Reading α) : Prop :=
  ∀ notes a notes', x.run.run notes = (.ok a, notes') → P a

namespace Yields

variable {α β : Type} {P : α → Prop} {Q : β → Prop}

theorem pure {a : α} (h : P a) : Yields P (Pure.pure a) := by
  intro notes b notes' hb
  cases hb
  exact h

theorem throw (e : ShapeError) : Yields P (MonadExcept.throw e) := by
  intro notes b notes' hb
  cases hb

theorem bind_of {x : Reading α} {f : α → Reading β} (hx : Yields P x)
    (hf : ∀ a, P a → Yields Q (f a)) : Yields Q (x >>= f) := by
  intro notes b notes' hb
  rw [Reading.run_bind] at hb
  rcases hfirst : x.run.run notes with ⟨e | a, mid⟩
  · rw [hfirst] at hb
    cases hb
  · rw [hfirst] at hb
    exact hf a (hx notes a mid hfirst) mid b notes' hb

theorem bind {x : Reading α} {f : α → Reading β} (hf : ∀ a, Yields Q (f a)) :
    Yields Q (x >>= f) :=
  bind_of (P := fun _ => True) (fun _ _ _ _ => trivial) fun a _ => hf a

theorem ite {c : Prop} [Decidable c] {x y : Reading α} (hx : Yields P x) (hy : Yields P y) :
    Yields P (if c then x else y) := by
  split
  · exact hx
  · exact hy

theorem mono {R : α → Prop} {x : Reading α} (h : Yields P x) (hPR : ∀ a, P a → R a) : Yields R x :=
  fun notes a notes' ha => hPR a (h notes a notes' ha)

end Yields

/-! ### style attributes -/

namespace Subject

variable (s : Subject) (pen : Pen)

/-- the style attributes of a shape that are written -/
def kept : List Attr :=
  (((s.scope.style ((s.fields.get? "style").getD .null)).1).filter fun m =>
    (Style.objection? m.1 m.2).isNone).map fun m => ⟨m.1, m.2⟩

theorem yields_style : Yields (· = s.kept) s.style := by
  intro notes a notes' h
  cases h
  rfl

/-- where the class and the style are read last, it is enough to look at the style that is kept -/
theorem yields_looks {P : Drawing → Prop} {fallback : String} {draw : String → List Attr → Drawing}
    (hdraw : ∀ cls style, style = s.kept → P (draw cls style)) :
    Yields P (s.cls fallback >>= fun cls => s.style >>= fun style => pure (draw cls style)) :=
  .bind fun cls => .bind_of s.yields_style fun style hst => .pure (hdraw cls style hst)

end Subject

theorem Style.mem_names_of_objection? {key value : String} (h : objection? key value = none) :
    key ∈ names := by
  unfold objection? at h
  split at h
  · cases h
  · rename_i hkey
    simpa using hkey

theorem Subject.mem_names_of_mem_kept {s : Subject} {a : Attr} (h : a ∈ s.kept) :
    a.name ∈ Style.names := by
  obtain ⟨m, hm, rfl⟩ := List.mem_map.mp h
  exact Style.mem_names_of_objection? (Option.isNone_iff_eq_none.mp (List.mem_filter.mp hm).2)

theorem Subject.named_kept (s : Subject) : Named s.kept := by
  have hnames : ∀ n ∈ Style.names, isName n.toList = true := by decide
  exact fun a ha => hnames a.name (mem_names_of_mem_kept ha)

/-! ### shapes -/

section
variable {S L : List Attr → Prop} (pen : Pen)

theorem Pen.drawn_arrow (name : String) (a b : Point) (head : Float) (cls : String)
    {style : List Attr} (h : S style) : Drawn S L (pen.arrow name a b head cls style) :=
  Drawn.append (drawn_line pen.places rfl (.inr h) a b)
    (Figures.drawn_polygon pen.places rfl (.inl rfl) (arrowHead a b head))

theorem Pen.drawn_gridLines (corner : Point) (width height step : Float) {look : Look}
    (tail : look.tail = "") (h : S look.style) :
    Drawn S L (pen.gridLines corner width height step look) := 
  .append (.map fun _ _ => drawn_line pen.places tail (.inr h) _ _)
    (.map fun _ _ => drawn_line pen.places tail (.inr h) _ _)

end

namespace Subject

variable (s : Subject) (pen : Pen)

/-- elements and groups whose styles are the one that is kept, and labels without a style -/
abbrev DrawnKept (s : Subject) : Drawing → Prop := Drawn (· = s.kept) fun _ => False

theorem drawn_drawLine : Yields s.DrawnKept (s.drawLine pen) := by
  refine .bind fun a => .bind fun b => s.yields_looks fun cls st hst => ?_
  exact drawn_line pen.places rfl (.inr hst) a b

theorem drawn_drawPolyline : Yields s.DrawnKept (s.drawPolyline pen) := by
  refine .bind fun points => .bind_of s.yields_style fun st hst => .bind fun cls => .pure ?_
  exact drawn_polyline pen.places rfl (.inr hst) points

theorem drawn_drawPolygon : Yields s.DrawnKept (s.drawPolygon pen) := by
  refine .bind fun points => .bind_of s.yields_style fun st hst => .bind fun cls => .pure ?_
  exact drawn_polygon pen.places rfl (.inr hst) points

theorem drawn_drawRect : Yields s.DrawnKept (s.drawRect pen) := by
  refine .bind fun x => .bind fun y => .bind fun width => .bind fun height =>
    s.yields_looks fun cls st hst => ?_
  exact drawn_rect pen.places rfl (.inr hst) ⟨x, y⟩ width height

theorem drawn_drawCircle : Yields s.DrawnKept (s.drawCircle pen) := by
  refine .bind fun center => .bind fun r => s.yields_looks fun cls st hst => ?_
  exact drawn_circle pen.places rfl (.inr hst) center r

theorem drawn_drawEllipse : Yields s.DrawnKept (s.drawEllipse pen) := by
  refine .bind fun center => .bind fun rx => .bind fun ry => s.yields_looks fun cls st hst => ?_
  exact drawn_ellipse pen.places rfl (.inr hst) center rx ry

theorem yields_text : Yields
    (fun d => ∃ content at' anchor cls,
      d = [.label pen.places (Element.text.styled s.name cls s.kept) content at' anchor])
    (s.drawText pen) := by
  refine .bind fun p => .bind fun content => ?_
  cases content with
  | none => exact .throw _
  | some content =>
    refine .bind fun anchor => s.yields_looks fun cls st hst => ?_
    exact ⟨content, p, anchor, cls, by rw [hst]⟩

theorem drawn_drawArrow : Yields s.DrawnKept (s.drawArrow pen) := by
  refine .bind fun a => .bind fun b => .bind fun head => s.yields_looks fun cls st hst => ?_
  exact pen.drawn_arrow s.name a b head cls hst

theorem drawn_drawArc : Yields s.DrawnKept (s.drawArc pen) := by
  refine .bind fun center => .bind fun r => .bind fun first => .bind fun last =>
    s.yields_looks fun cls st hst => ?_
  exact drawn_path pen.places rfl (.inr hst) _

theorem drawn_drawAngleMarker : Yields s.DrawnKept (s.drawAngleMarker pen) := by
  refine .bind fun vertex => .bind fun p => .bind fun q => .bind fun r => .bind fun degrees =>
    .bind fun label => s.yields_looks fun cls st hst => ?_
  exact Drawn.append (drawn_path pen.places rfl (.inr hst) _) (pen.drawn_text _ _ _ _ _)

theorem drawn_drawTickMark : Yields s.DrawnKept (s.drawTickMark pen) := by
  refine .bind fun a => .bind fun b => .bind fun t => .bind fun count => .bind fun size =>
    s.yields_looks fun cls st hst => ?_
  exact drawn_path pen.places rfl (.inr hst) _

theorem drawn_drawGrid : Yields s.DrawnKept (s.drawGrid pen) := by
  refine .bind fun x => .bind fun y => .bind fun width => .bind fun height => .bind fun step => ?_
  refine .ite (.bind fun _ => ?_) ?_
  all_goals
    refine s.yields_looks fun cls st hst => ?_
    exact .group (pen.drawn_gridLines _ _ _ _ rfl hst) _

theorem drawn_drawAxes : Yields s.DrawnKept (s.drawAxes pen) := by
  refine .bind fun o => .bind fun xLength => .bind fun yLength => .bind fun xLabel =>
    .bind fun yLabel => s.yields_looks fun cls st hst => ?_
  refine .group (.append (.append (.append ?_ ?_) (pen.drawn_text _ _ _ _ _))
    (pen.drawn_text _ _ _ _ _)) _
  · exact pen.drawn_arrow _ _ _ _ cls hst
  · exact pen.drawn_arrow _ _ _ _ cls hst

/-- a shape is drawn with groups, elements and labels; only the label of a text has a style -/
theorem yields_draw (kind : ShapeKind) :
    Yields (Drawn (· = s.kept) (fun style => kind = .text ∧ style = s.kept)) (s.draw pen kind) := by
  have plain : ∀ {x : Reading Drawing}, Yields s.DrawnKept x →
      Yields (Drawn (· = s.kept) (fun style => kind = .text ∧ style = s.kept)) x := fun h =>
    h.mono fun d hd => hd.mono (fun _ hst => hst) fun _ => False.elim
  cases kind with
  | line => exact plain (s.drawn_drawLine pen)
  | polyline => exact plain (s.drawn_drawPolyline pen)
  | polygon => exact plain (s.drawn_drawPolygon pen)
  | rect => exact plain (s.drawn_drawRect pen)
  | circle => exact plain (s.drawn_drawCircle pen)
  | ellipse => exact plain (s.drawn_drawEllipse pen)
  | text =>
    refine (s.yields_text pen).mono fun d hd => ?_
    obtain ⟨content, at', anchor, cls, rfl⟩ := hd
    exact drawn_label rfl (.inr ⟨rfl, rfl⟩)
  | arrow => exact plain (s.drawn_drawArrow pen)
  | arc => exact plain (s.drawn_drawArc pen)
  | angleMarker => exact plain (s.drawn_drawAngleMarker pen)
  | tickMark => exact plain (s.drawn_drawTickMark pen)
  | grid => exact plain (s.drawn_drawGrid pen)
  | axes => exact plain (s.drawn_drawAxes pen)

end Subject

/-- a shape that is skipped has no drawing, any other one is drawn as its kind is -/
theorem Shape.render_cases (scope : Scope) (pen : Pen) (name : String) (item : Shape) :
    (item.render scope pen name).1 = [] ∨
      ∃ kind notes notes', ShapeKind.ofName? item.kind = some kind ∧
        (Subject.draw ⟨scope, name, item.fields⟩ pen kind).run.run notes
          = (.ok (item.render scope pen name).1, notes') := by
  unfold Shape.render
  split
  · rename_i drawing notes hrun
    unfold reading at hrun
    split at hrun
    · rename_i kind hkind
      exact .inr ⟨kind, [], notes, hkind, hrun⟩
    · cases hrun
  · exact .inl rfl

section
variable {S : List Attr → Prop} (scope : Scope) (pen : Pen)

/-- a shape is drawn with groups, elements and labels whose styles are what is kept of its own -/
theorem Shape.drawn_render {name : String} {item : Shape}
    (h : S (Subject.kept ⟨scope, name, item.fields⟩)) :
    Drawn S S (item.render scope pen name).1 := by
  rcases item.render_cases scope pen name with hnil | ⟨kind, notes, notes', -, hrun⟩
  · rw [hnil]
    exact drawn_nil
  · exact (Subject.yields_draw ⟨scope, name, item.fields⟩ pen kind notes _ notes' hrun).mono
      (fun style hst => hst ▸ h) fun style hst => hst.2 ▸ h

variable (h : ∀ s : Subject, S s.kept)
include h

theorem Layer.drawn_drawing (layer : Layer) : Drawn S S (layer.drawing scope pen) := by
  refine .group (.flatMap fun r hr => ?_) _
  obtain ⟨e, _, rfl⟩ := List.mem_map.mp hr
  exact Shape.drawn_render scope pen (h _)

/-- a blueprint is drawn with groups, elements and labels whose styles satisfy what every kept style
does -/
theorem Blueprint.drawn_scene_of (b : Blueprint) : Drawn S S (b.scene scope pen).drawing :=
  .flatMap fun layer _ => layer.drawn_drawing scope pen h

end

/-- a blueprint is drawn with groups, elements and labels, whatever shapes are skipped -/
theorem Blueprint.drawn_scene (b : Blueprint) (scope : Scope) (pen : Pen) :
    Drawn Named Named (b.scene scope pen).drawing :=
  b.drawn_scene_of scope pen Subject.named_kept

theorem Blueprint.image_eq (b : Blueprint) (scope : Scope) (ctx : Context) :
    b.image scope ctx = (b.scene scope (Pen.of ctx)).image ctx := by
  rw [image, Canvas.layers_eq]
  exact Canvas.finish_eq (b.scene scope (Pen.of ctx)) (b.drawn_scene scope (Pen.of ctx)).nested ctx

end Figures
