import Figures.Proofs.Blueprint.Drawing
import Figures.Proofs.Formula.Quoting

/-!
# Values and formulas as fields

* `Related R x y`            reading fields one way and the other: the same reason to skip the
                             shape, or values that are related
* `Scope.toOption_number`, …  a value is read as what it is resolved to
* `Subject.Alike`            two shapes whose fields, but for the style, are resolved to the same
                             values
* `Subject.related_draw`     they are drawn or skipped alike; the drawings differ in the style only
* `Shape.interchange_iff`    a formula in the place of its value
-/

namespace Figures

/-! ### reading fields one way and the other -/

/-- the same error, or results that are related -/
inductive Paired {α β : Type} (R : α → β → Prop) : Except ShapeError α → Except ShapeError β → Prop
  | ok {a : α} {b : β} (h : R a b) : Paired R (.ok a) (.ok b)
  | error (e : ShapeError) : Paired R (.error e) (.error e)

/-- what comes of reading fields one way and the other, whatever notes there are before -/
def Related {α β : Type} (R : α → β → Prop) (x : Reading α) (y : Reading β) : Prop :=
  ∀ notes notes', Paired R (x.run.run notes).1 (y.run.run notes').1

namespace Related

variable {α β γ δ : Type} {R : α → β → Prop} {Q : γ → δ → Prop}

theorem pure {a : α} {b : β} (h : R a b) : Related R (Pure.pure a) (Pure.pure b) :=
  fun _ _ => .ok h

theorem throw (e : ShapeError) : Related R (MonadExcept.throw e) (MonadExcept.throw e) :=
  fun _ _ => .error e

theorem bind {x : Reading α} {y : Reading β} {f : α → Reading γ} {g : β → Reading δ}
    (h : Related R x y) (hfg : ∀ a b, R a b → Related Q (f a) (g b)) :
    Related Q (x >>= f) (y >>= g) := by
  intro notes notes'
  rw [Reading.run_bind, Reading.run_bind]
  have hxy := h notes notes'
  generalize x.run.run notes = rx at hxy
  generalize y.run.run notes' = ry at hxy
  rcases rx with ⟨e | a, mid⟩ <;> rcases ry with ⟨e' | b, mid'⟩ <;> cases hxy
  · exact .error e
  · rename_i hab
    exact hfg a b hab mid mid'

/-- the rest of two readings that agree so far -/
theorem bind_eq {x y : Reading α} {f : α → Reading γ} {g : α → Reading δ}
    (h : Related Eq x y) (hfg : ∀ a, Related Q (f a) (g a)) : Related Q (x >>= f) (y >>= g) :=
  h.bind fun a _ hab => hab ▸ hfg a

theorem ite {c : Prop} [Decidable c] {x x' : Reading α} {y y' : Reading β} (h : Related R x y)
    (h' : Related R x' y') : Related R (if c then x else x') (if c then y else y') := by
  split
  · exact h
  · exact h'

theorem mapM {f g : γ → Reading α} (h : ∀ c, Related Eq (f c) (g c)) (l : List γ) :
    Related Eq (l.mapM f) (l.mapM g) := by
  induction l with
  | nil => exact .pure rfl
  | cons c l ih =>
    rw [List.mapM_cons, List.mapM_cons]
    exact (h c).bind_eq fun a => ih.bind_eq fun as => .pure rfl

end Related

/-! ### values as what they are resolved to -/

section
variable {ε α β : Type} {x y : Except ε α} {f g : α → Except ε β}

theorem toOption_bind_congr (h : x.toOption = y.toOption)
    (hfg : ∀ a, (f a).toOption = (g a).toOption) : (x >>= f).toOption = (y >>= g).toOption := by
  cases x <;> cases y <;> cases h
  · rfl
  · exact hfg _

theorem toOption_mapError {δ : Type} (k : ε → δ) (x : Except ε α) :
    (x.mapError k).toOption = x.toOption := by
  cases x <;> rfl

end

namespace Scope

variable {scope : Scope} {a b : Json}

theorem toOption_coordinate (a b resolved : Json) (axis : String) :
    (scope.coordinate a resolved axis).toOption = (scope.coordinate b resolved axis).toOption := by
  rw [coordinate, coordinate]
  cases resolved.member? axis <;> rfl

variable (h : scope.resolve a = scope.resolve b)
include h

theorem toOption_number : (scope.number a).toOption = (scope.number b).toOption := by
  refine toOption_bind_congr (congrArg _ h) fun resolved => ?_
  rw [toOption_mapError, toOption_mapError]

theorem toOption_point : (scope.point a).toOption = (scope.point b).toOption := by
  refine toOption_bind_congr (congrArg _ h) fun resolved => ?_
  cases resolved with
  | object members =>
    exact toOption_bind_congr (toOption_coordinate a b _ "x") fun x =>
      toOption_bind_congr (toOption_coordinate a b _ "y") fun y => rfl
  | null | boolean | integer | real | text | list => rfl

theorem text_eq : scope.text a = scope.text b := by rw [text, text, h]

end Scope

namespace Subject

def withFields (s : Subject) (fields : Dict Json) : Subject := { s with fields }

/-- other fields for a shape that are resolved to the same values, but for the style -/
def Alike (s : Subject) (fields : Dict Json) : Prop :=
  ∀ field, field ≠ "style" →
    (s.fields.get? field).map s.scope.resolve = (fields.get? field).map s.scope.resolve

variable {s : Subject} {fields : Dict Json}

/-- notes apart, a value is settled by whether there is one -/
theorem related_settle {α : Type} (field : String) (replacement : α) {x y : Except Unresolved α}
    (h : x.toOption = y.toOption) :
    Related Eq (settle field replacement x) (settle field replacement y) := by
  intro notes notes'
  cases x <;> cases y <;> cases h <;> exact .ok rfl

section
variable (h : s.Alike fields) {field : String} (hfield : field ≠ "style")
include h hfield

theorem Alike.get?_cases :
    s.fields.get? field = none ∧ (s.withFields fields).fields.get? field = none ∨
      ∃ v w, s.fields.get? field = some v ∧ (s.withFields fields).fields.get? field = some w ∧
        s.scope.resolve v = s.scope.resolve w := by
  have hresolved := h field hfield
  show _ ∨ ∃ v w, _ ∧ fields.get? field = some w ∧ _
  cases hv : s.fields.get? field <;> cases hw : fields.get? field <;> rw [hv, hw] at hresolved
  · exact .inl ⟨rfl, hw⟩
  · cases hresolved
  · cases hresolved
  · exact .inr ⟨_, _, rfl, rfl, Option.some.inj hresolved⟩

theorem Alike.related_given :
    Related (fun v w => s.scope.resolve v = s.scope.resolve w)
      (s.given field) ((s.withFields fields).given field) := by
  rw [given, given]
  rcases h.get?_cases hfield with ⟨hv, hw⟩ | ⟨v, w, hv, hw, hresolve⟩ <;> rw [hv, hw]
  · exact .throw _
  · exact .pure hresolve

theorem Alike.related_number : Related Eq (s.number field) ((s.withFields fields).number field) :=
  (h.related_given hfield).bind fun _ _ hresolve =>
    related_settle field _ (Scope.toOption_number hresolve)

theorem Alike.related_numberOr (fallback : Float) :
    Related Eq (s.numberOr field fallback) ((s.withFields fields).numberOr field fallback) := by
  rw [numberOr, numberOr]
  rcases h.get?_cases hfield with ⟨hv, hw⟩ | ⟨v, w, hv, hw, hresolve⟩ <;> rw [hv, hw]
  · exact .pure rfl
  · exact related_settle field _ (Scope.toOption_number hresolve)

theorem Alike.related_positive :
    Related Eq (s.positive field) ((s.withFields fields).positive field) :=
  (h.related_number hfield).bind_eq fun _ => .ite (.pure rfl) (.throw _)

theorem Alike.related_point : Related Eq (s.point field) ((s.withFields fields).point field) :=
  (h.related_given hfield).bind fun _ _ hresolve =>
    related_settle field _ (Scope.toOption_point hresolve)

theorem Alike.related_points : Related Eq (s.points field)
    ((s.withFields fields).points field) := by
  refine (h.related_given hfield).bind fun v w hresolve => ?_
  refine Related.bind_eq (related_settle field _ (congrArg _ hresolve)) fun resolved => ?_
  cases resolved with
  | list items => exact Related.mapM (fun item => related_settle field _ rfl) items
  | null | boolean | integer | real | text | object => exact .throw _

theorem Alike.related_text? : Related Eq (s.text? field) ((s.withFields fields).text? field) := by
  rw [text?, text?]
  rcases h.get?_cases hfield with ⟨hv, hw⟩ | ⟨v, w, hv, hw, hresolve⟩ <;> rw [hv, hw]
  · exact .pure rfl
  · exact Related.bind_eq (related_settle field _ (congrArg _ (Scope.text_eq hresolve)))
      fun _ => .pure rfl

theorem Alike.related_flag (fallback : Bool) :
    Related Eq (s.flag field fallback) ((s.withFields fields).flag field fallback) := by
  rw [flag, flag]
  rcases h.get?_cases hfield with ⟨hv, hw⟩ | ⟨v, w, hv, hw, hresolve⟩ <;> rw [hv, hw]
  · exact .pure rfl
  · refine Related.bind_eq (related_settle field _ (congrArg _ hresolve)) fun resolved => ?_
    cases resolved <;> exact .pure rfl

end

section
variable (h : s.Alike fields)
include h

theorem Alike.related_cls (fallback : String) :
    Related Eq (s.cls fallback) ((s.withFields fields).cls fallback) :=
  (h.related_text? (by decide)).bind_eq fun _ => .pure rfl

theorem Alike.related_chain : Related Eq s.chain (s.withFields fields).chain := by
  refine (h.related_points (by decide)).bind_eq fun points => ?_
  refine .ite (Related.bind_eq (.throw _) fun _ => .pure rfl) (.pure rfl)

theorem Alike.related_anchor : Related Eq s.anchor (s.withFields fields).anchor := by
  refine (h.related_text? (by decide)).bind_eq fun name => ?_
  cases name with
  | none => exact .pure rfl
  | some name =>
    dsimp only
    cases Anchor.ofName? name with
    | none => exact .throw _
    | some a => exact .pure rfl

end

theorem related_style :
    Related (fun st st' => st = s.kept ∧ st' = (s.withFields fields).kept)
      s.style (s.withFields fields).style :=
  fun _ _ => .ok ⟨rfl, rfl⟩

/-- two drawings, the same if and only if the same style is kept -/
def SameIfKept (s : Subject) (fields : Dict Json) (d d' : Drawing) : Prop :=
  d = d' ↔ s.kept = (s.withFields fields).kept

/-- a style that can be read off the drawing is read last -/
theorem related_styled {draw : List Attr → Drawing} (hdraw : Function.Injective draw) :
    Related (s.SameIfKept fields) (s.style >>= fun st => pure (draw st))
      ((s.withFields fields).style >>= fun st => pure (draw st)) := by
  refine related_style.bind fun st st' hst => .pure ?_
  obtain ⟨rfl, rfl⟩ := hst
  exact hdraw.eq_iff

theorem Alike.related_cls_styled (h : s.Alike fields) (fallback : String)
    {draw : String → List Attr → Drawing} (hdraw : ∀ cls, Function.Injective (draw cls)) :
    Related (s.SameIfKept fields)
      (s.cls fallback >>= fun cls => s.style >>= fun st => pure (draw cls st))
      ((s.withFields fields).cls fallback >>= fun cls =>
        (s.withFields fields).style >>= fun st => pure (draw cls st)) :=
  (h.related_cls fallback).bind_eq fun cls => related_styled (hdraw cls)

theorem Alike.related_styled_cls (h : s.Alike fields) (fallback : String)
    {draw : List Attr → String → Drawing} (hdraw : ∀ cls, Function.Injective fun st =>
      draw st cls) :
    Related (s.SameIfKept fields)
      (s.style >>= fun st => s.cls fallback >>= fun cls => pure (draw st cls))
      ((s.withFields fields).style >>= fun st =>
        (s.withFields fields).cls fallback >>= fun cls => pure (draw st cls)) := by
  refine related_style.bind fun st st' hst => (h.related_cls fallback).bind_eq fun cls => .pure ?_
  obtain ⟨rfl, rfl⟩ := hst
  exact (hdraw cls).eq_iff

end Subject

/-! ### styles can be read off drawings -/

section
variable (look : Look)

theorem injective_element (tag : String) (geometry : List Attr) :
    Function.Injective fun st => Piece.element tag { look with style := st } geometry := by
  intro st st' h
  simpa [Piece.element, Look.identity] using h

theorem injective_label (places : Nat) (content : String) (p : Point) (anchor : Anchor) :
    Function.Injective fun st => Piece.label places { look with style := st } content p anchor := by
  intro st st' h
  simpa [Piece.label, Look.identity] using h

/-- the first piece is enough -/
theorem injective_of_head {draw : List Attr → Drawing} {p : List Attr → Piece}
    (hp : Function.Injective p) (hdraw : ∀ st, (draw st).head? = some (p st)) :
    Function.Injective draw := by
  intro st st' h
  refine hp (Option.some.inj ?_)
  rw [← hdraw, ← hdraw, h]

theorem injective_group (name : String) {draw : List Attr → Drawing}
    (hdraw : Function.Injective draw) : Function.Injective fun st => Pen.group name (draw st) := by
  intro st st' h
  exact hdraw (List.append_cancel_right (List.cons.inj h).2)

theorem injective_gridLines (pen : Pen) (corner : Point) (width height step : Float) :
    Function.Injective fun st => pen.gridLines corner width height step
      { look with style := st } := by
  simp only [Pen.gridLines, List.range_succ_eq_map]
  exact injective_of_head (injective_element look _ _) fun _ => rfl

end

namespace Subject

variable {s : Subject} {fields : Dict Json}

section
variable (h : s.Alike fields) (pen : Pen)
include h

theorem Alike.related_drawLine :
    Related (s.SameIfKept fields) (s.drawLine pen) ((s.withFields fields).drawLine pen) := by
  refine (h.related_point (by decide)).bind_eq fun a =>
    (h.related_point (by decide)).bind_eq fun b => h.related_cls_styled _ fun cls => ?_
  exact injective_of_head (injective_element _ _ _) fun _ => rfl

theorem Alike.related_drawPolyline :
    Related (s.SameIfKept fields) (s.drawPolyline pen)
      ((s.withFields fields).drawPolyline pen) := by
  refine h.related_chain.bind_eq fun points => h.related_styled_cls _ fun cls => ?_
  exact injective_of_head (injective_element _ _ _) fun _ => rfl

theorem Alike.related_drawPolygon :
    Related (s.SameIfKept fields) (s.drawPolygon pen) ((s.withFields fields).drawPolygon pen) := by
  refine h.related_chain.bind_eq fun points => h.related_styled_cls _ fun cls => ?_
  exact injective_of_head (injective_element _ _ _) fun _ => rfl

theorem Alike.related_drawRect :
    Related (s.SameIfKept fields) (s.drawRect pen) ((s.withFields fields).drawRect pen) := by
  refine (h.related_number (by decide)).bind_eq fun x =>
    (h.related_number (by decide)).bind_eq fun y =>
    (h.related_positive (by decide)).bind_eq fun width =>
    (h.related_positive (by decide)).bind_eq fun height => h.related_cls_styled _ fun cls => ?_
  exact injective_of_head (injective_element _ _ _) fun _ => rfl

theorem Alike.related_drawCircle :
    Related (s.SameIfKept fields) (s.drawCircle pen) ((s.withFields fields).drawCircle pen) := by
  refine (h.related_point (by decide)).bind_eq fun center =>
    (h.related_positive (by decide)).bind_eq fun r => h.related_cls_styled _ fun cls => ?_
  exact injective_of_head (injective_element _ _ _) fun _ => rfl

theorem Alike.related_drawEllipse :
    Related (s.SameIfKept fields) (s.drawEllipse pen) ((s.withFields fields).drawEllipse pen) := by
  refine (h.related_point (by decide)).bind_eq fun center =>
    (h.related_positive (by decide)).bind_eq fun rx =>
    (h.related_positive (by decide)).bind_eq fun ry => h.related_cls_styled _ fun cls => ?_
  exact injective_of_head (injective_element _ _ _) fun _ => rfl

theorem Alike.related_drawText :
    Related (s.SameIfKept fields) (s.drawText pen) ((s.withFields fields).drawText pen) := by
  refine (h.related_point (by decide)).bind_eq fun p =>
    (h.related_text? (by decide)).bind_eq fun content => ?_
  cases content with
  | none => exact .throw _
  | some content =>
    refine h.related_anchor.bind_eq fun anchor => h.related_cls_styled _ fun cls => ?_
    exact injective_of_head (injective_label _ _ _ _ _) fun _ => rfl

theorem Alike.related_drawArrow :
    Related (s.SameIfKept fields) (s.drawArrow pen) ((s.withFields fields).drawArrow pen) := by
  refine (h.related_point (by decide)).bind_eq fun a =>
    (h.related_point (by decide)).bind_eq fun b =>
    (h.related_numberOr (by decide) _).bind_eq fun head => h.related_cls_styled _ fun cls => ?_
  exact injective_of_head (injective_element _ _ _) fun _ => rfl

theorem Alike.related_drawArc :
    Related (s.SameIfKept fields) (s.drawArc pen) ((s.withFields fields).drawArc pen) := by
  refine (h.related_point (by decide)).bind_eq fun center =>
    (h.related_positive (by decide)).bind_eq fun r =>
    (h.related_number (by decide)).bind_eq fun first =>
    (h.related_number (by decide)).bind_eq fun last => h.related_cls_styled _ fun cls => ?_
  exact injective_of_head (injective_element _ _ _) fun _ => rfl

theorem Alike.related_drawAngleMarker :
    Related (s.SameIfKept fields) (s.drawAngleMarker pen)
      ((s.withFields fields).drawAngleMarker pen) := by
  refine (h.related_point (by decide)).bind_eq fun vertex =>
    (h.related_point (by decide)).bind_eq fun p =>
    (h.related_point (by decide)).bind_eq fun q =>
    (h.related_numberOr (by decide) _).bind_eq fun r =>
    (h.related_flag (by decide) _).bind_eq fun degrees =>
    (h.related_text? (by decide)).bind_eq fun label => h.related_cls_styled _ fun cls => ?_
  exact injective_of_head (injective_element _ _ _) fun _ => rfl

theorem Alike.related_drawTickMark :
    Related (s.SameIfKept fields) (s.drawTickMark pen)
      ((s.withFields fields).drawTickMark pen) := by
  refine (h.related_point (by decide)).bind_eq fun a =>
    (h.related_point (by decide)).bind_eq fun b =>
    (h.related_numberOr (by decide) _).bind_eq fun t =>
    (h.related_numberOr (by decide) _).bind_eq fun count =>
    (h.related_numberOr (by decide) _).bind_eq fun size => h.related_cls_styled _ fun cls => ?_
  exact injective_of_head (injective_element _ _ _) fun _ => rfl

theorem Alike.related_drawGrid :
    Related (s.SameIfKept fields) (s.drawGrid pen) ((s.withFields fields).drawGrid pen) := by
  refine (h.related_number (by decide)).bind_eq fun x =>
    (h.related_number (by decide)).bind_eq fun y =>
    (h.related_positive (by decide)).bind_eq fun width =>
    (h.related_positive (by decide)).bind_eq fun height =>
    (h.related_positive (by decide)).bind_eq fun step => ?_
  refine .ite (Related.bind_eq (.throw _) fun _ => ?_) ?_
  all_goals
    refine h.related_cls_styled _ fun cls => injective_group _ ?_
    exact injective_gridLines { cls := some cls } pen _ _ _ _

theorem Alike.related_drawAxes :
    Related (s.SameIfKept fields) (s.drawAxes pen) ((s.withFields fields).drawAxes pen) := by
  refine (h.related_point (by decide)).bind_eq fun o =>
    (h.related_positive (by decide)).bind_eq fun xLength =>
    (h.related_positive (by decide)).bind_eq fun yLength =>
    (h.related_text? (by decide)).bind_eq fun xLabel =>
    (h.related_text? (by decide)).bind_eq fun yLabel =>
    h.related_cls_styled _ fun cls => injective_group _ ?_
  exact injective_of_head (injective_element _ _ _) fun _ => rfl

/-- shapes that are alike are skipped for the same reason, or drawn alike but for the style -/
theorem Alike.related_draw (kind : ShapeKind) :
    Related (s.SameIfKept fields) (s.draw pen kind) ((s.withFields fields).draw pen kind) := by
  cases kind with
  | line => exact h.related_drawLine pen
  | polyline => exact h.related_drawPolyline pen
  | polygon => exact h.related_drawPolygon pen
  | rect => exact h.related_drawRect pen
  | circle => exact h.related_drawCircle pen
  | ellipse => exact h.related_drawEllipse pen
  | text => exact h.related_drawText pen
  | arrow => exact h.related_drawArrow pen
  | arc => exact h.related_drawArc pen
  | angleMarker => exact h.related_drawAngleMarker pen
  | tickMark => exact h.related_drawTickMark pen
  | grid => exact h.related_drawGrid pen
  | axes => exact h.related_drawAxes pen

end

end Subject

namespace Shape

def withField (item : Shape) (field : String) (v : Json) : Shape :=
  { item with fields := item.fields.insert field v }

/-- what comes of a shape: its drawing, or why it is skipped -/
def outcome (item : Shape) (scope : Scope) (pen : Pen) (name : String) :
    Except ShapeError Drawing :=
  ((item.reading scope pen name).run.run []).1

/-- what is noted while the fields of a shape are read -/
def notes (item : Shape) (scope : Scope) (pen : Pen) (name : String) : List Note :=
  ((item.reading scope pen name).run.run []).2

/-- a shape has a drawing if none of its fields is in the way, and in any case a warning for each
note -/
theorem render_eq (item : Shape) (scope : Scope) (pen : Pen) (name : String) :
    item.render scope pen name = match item.outcome scope pen name with
      | .ok d => (d, (item.notes scope pen name).map (Note.message name))
      | .error e =>
        ([], (item.notes scope pen name).map (Note.message name) ++
          [skipMessage name item.kind e]) := by
  rw [render, outcome, notes]
  rcases (item.reading scope pen name).run.run [] with ⟨_ | d, notes⟩ <;> rfl

theorem fst_render (item : Shape) (scope : Scope) (pen : Pen) (name : String) :
    (item.render scope pen name).1 = ((item.outcome scope pen name).toOption).getD [] := by
  rw [render_eq]
  cases item.outcome scope pen name <;> rfl

variable {scope : Scope} {name : String} {item : Shape} {field : String} {v w : Json}

theorem alike_withField (h : scope.resolve v = scope.resolve w) :
    Subject.Alike ⟨scope, name, (item.withField field v).fields⟩
      (item.withField field w).fields := by
  intro key _
  show ((item.fields.insert field v).get? key).map scope.resolve
    = ((item.fields.insert field w).get? key).map scope.resolve
  rw [Dict.get?_insert, Dict.get?_insert]
  split
  · exact congrArg some h
  · rfl

/-- a value and another one that is resolved to the same: the shape is skipped for the same reason,
or drawn with what is kept of either style -/
theorem paired_withField (pen : Pen) (name : String) (item : Shape) (field : String)
    (h : scope.resolve v = scope.resolve w) :
    Paired (Subject.SameIfKept ⟨scope, name, (item.withField field v).fields⟩
        (item.withField field w).fields)
      ((item.withField field v).outcome scope pen name)
      ((item.withField field w).outcome scope pen name) := by
  have hrelated : Related (Subject.SameIfKept ⟨scope, name, (item.withField field v).fields⟩
        (item.withField field w).fields)
      ((item.withField field v).reading scope pen name)
      ((item.withField field w).reading scope pen name) := by
    rw [reading, reading, show (item.withField field w).kind =
      (item.withField field v).kind from rfl]
    cases ShapeKind.ofName? (item.withField field v).kind with
    | none => exact .throw _
    | some kind => exact (alike_withField h).related_draw pen kind
  exact hrelated [] []

/-- nothing is kept of a style that is no object, and the formula of one is none -/
theorem kept_withField_text (t : String) :
    Subject.kept ⟨scope, name, (item.withField "style" (.text t)).fields⟩ = [] := by
  have hget : (item.withField "style" (.text t)).fields.get? "style" = some (.text t) := by
    rw [withField, Dict.get?_insert, if_pos rfl]
  rw [Subject.kept, hget]
  rfl

theorem kept_withField_of_ne (h : field ≠ "style") :
    Subject.kept ⟨scope, name, (item.withField field v).fields⟩
      = Subject.kept ⟨scope, name, (item.withField field w).fields⟩ := by
  have hget : ∀ v, (item.withField field v).fields.get? "style" = item.fields.get? "style" := by
    intro v
    rw [withField, Dict.get?_insert, if_neg (Ne.symm h)]
  rw [Subject.kept, Subject.kept, hget, hget]

/-- A field of a shape that holds the value of a formula, and the same field with the formula itself
in double braces: the shape is skipped in both cases, for the same reason, or in neither. It is
drawn the same in both cases if and only if the field is not the style, or the shape is skipped, or
nothing of that style would be written anyway. -/
theorem interchange_iff (scope : Scope) (pen : Pen) (name : String) (item : Shape)
    (field source : String) (v : Json) (hv : v.Literal) (hsource : scope.evaluate source = .ok v) :
    (∀ e, (item.withField field v).outcome scope pen name = .error e ↔
      (item.withField field (.text (Formula.braced source))).outcome scope pen name = .error e) ∧
    (((item.withField field v).render scope pen name).1
        = ((item.withField field (.text (Formula.braced source))).render scope pen name).1 ↔
      field ≠ "style" ∨ (∃ e, (item.withField field v).outcome scope pen name = .error e) ∨
        Subject.kept ⟨scope, name, (item.withField field v).fields⟩ = []) := by
  have hresolve : scope.resolve v = scope.resolve (.text (Formula.braced source)) := by
    rw [Scope.resolve_literal hv, Scope.resolve_braced (Scope.ne_empty_of_evaluate hsource),
      hsource]
  have hpaired := paired_withField pen name item field hresolve
  rw [fst_render, fst_render]
  generalize (item.withField field v).outcome scope pen name = x at hpaired ⊢
  generalize (item.withField field (.text (Formula.braced source))).outcome scope pen name = y
    at hpaired ⊢
  cases hpaired with
  | error e => exact ⟨fun _ => Iff.rfl, iff_of_true rfl (.inr (.inl ⟨e, rfl⟩))⟩
  | ok hsame =>
    refine ⟨fun e => ⟨nofun, nofun⟩, hsame.trans ⟨fun hkept => ?_, ?_⟩⟩
    · by_cases hfield : field = "style"
      · subst hfield
        exact .inr (.inr (hkept.trans (kept_withField_text _)))
      · exact .inl hfield
    · rintro (hfield | ⟨e, he⟩ | hnone)
      · exact kept_withField_of_ne hfield
      · cases he
      · by_cases hfield : field = "style"
        · subst hfield
          exact hnone.trans (kept_withField_text _).symm
        · exact kept_withField_of_ne hfield

def diagonal : Shape where
  id := "a"
  kind := "line"
  fields := Dict.ofList
    [("from", .object [("x", .integer 1), ("y", .integer 2)]),
     ("to", .object [("x", .integer 3), ("y", .integer 4)])]

def startPoint : Json := .object [("x", .integer 0), ("y", .integer 5)]

def redStroke : Json := .object [("stroke", .text "red")]

def lineScope : Scope := ⟨.object [("p", startPoint), ("s", redStroke)]⟩

/-- a line may start at the value of a formula -/
theorem interchange_iff_start :
    (startPoint.Literal ∧ lineScope.evaluate "p" = .ok startPoint) ∧
      ((diagonal.withField "from" startPoint).render lineScope (Pen.of {}) "a").1
        = ((diagonal.withField "from" (.text (Formula.braced "p"))).render
            lineScope (Pen.of {}) "a").1 := by
  have hliteral : startPoint.Literal := nofun
  have hevaluate : lineScope.evaluate "p" = .ok startPoint := by with_unfolding_all rfl
  exact ⟨⟨hliteral, hevaluate⟩, (interchange_iff lineScope (Pen.of {}) "a" diagonal "from"
    "p" startPoint
    hliteral hevaluate).2.mpr (.inl (by decide))⟩

/-- but may not have the value of one as its style: it is drawn without, and nothing is noted -/
theorem formula_as_style_dropped :
    (redStroke.Literal ∧ lineScope.evaluate "s" = .ok redStroke) ∧
      ((diagonal.withField "style" redStroke).render lineScope (Pen.of {}) "a").1
        ≠ ((diagonal.withField "style" (.text (Formula.braced "s"))).render lineScope
          (Pen.of {}) "a").1 ∧
      ((diagonal.withField "style" (.text (Formula.braced "s"))).render lineScope (Pen.of {}) "a").2
        = [] := by
  have hliteral : redStroke.Literal := nofun
  have hevaluate : lineScope.evaluate "s" = .ok redStroke := by with_unfolding_all rfl
  refine ⟨⟨hliteral, hevaluate⟩, ?_, ?_⟩
  · decide
  · decide

end Shape

end Figures
