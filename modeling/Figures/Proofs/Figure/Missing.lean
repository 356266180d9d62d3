import Figures.Proofs.Except
import Figures.Proofs.Figure.Scenes

/-!
# What stops the figures

* `Other`           an error that is not reported as a missing parameter
* `Leads P Q x`     an error of `x` satisfies `P`, and what comes of `x` satisfies `Q`
* `Stops C`         an error that is a missing parameter only where `C` holds
* `stops_scene`     for every figure, where a parameter can be missing
-/

namespace Figures

/-- an error that is not reported as a missing parameter -/
def TemplateError.Other (err : TemplateError) : Prop :=
  ∀ name, err.message ≠ (missing name).message

/-- a warning that does not begin like the report of an error -/
def Calm (w : String) : Prop := w.toList.head? ≠ some 'R'

theorem ne_of_head {s t : String} (h : s.toList.head? ≠ t.toList.head?) : s ≠ t := by
  intro heq
  exact h (by rw [heq])

theorem head_append {s : String} {c : Char} (h : s.toList.head? = some c) (t : String) :
    (s ++ t).toList.head? = some c := by
  rw [String.toList_append, List.head?_append, h, Option.some_or]

namespace TemplateError

theorem head_missing (name : String) : (missing name).message.toList.head? = some 'm' := by
  exact head_append (s := "missing parameter: ") rfl _

theorem other_invalid (name reason : String) : (invalid name reason).Other := by
  intro n
  refine ne_of_head ?_
  have hhead : (invalid name reason).message.toList.head? = some 'i' :=
    head_append (head_append (head_append (s := "invalid parameter ") rfl _) _) _
  rw [hhead, head_missing]
  decide

end TemplateError

/-- an error that is a missing parameter only where `C` holds -/
def Stops (C : Prop) (err : TemplateError) : Prop := (∃ name, err = .missing name) ∧ C ∨ err.Other

/-- an error of `x` satisfies `P`, and what comes of `x` satisfies `Q` -/
def Leads {α : Type} (P : TemplateError → Prop) (Q : α → Prop)
    (x : Except TemplateError α) : Prop :=
  (∀ err, x = .error err → P err) ∧ ∀ a, x = .ok a → Q a

namespace Leads

variable {α β : Type} {P : TemplateError → Prop} {Q : β → Prop}

theorem pure {b : β} (h : Q b) : Leads P Q (Pure.pure b) := by
  refine ⟨nofun, fun a ha => ?_⟩
  cases ha
  exact h

theorem error {err : TemplateError} (h : P err) : Leads P Q (.error err) := by
  refine ⟨fun e he => ?_, nofun⟩
  cases he
  exact h

theorem bind {x : Except TemplateError α} {f : α → Except TemplateError β}
    (hx : ∀ err, x = .error err → P err) (hf : ∀ a, x = .ok a → Leads P Q (f a)) :
    Leads P Q (x >>= f) := by
  cases x with
  | error err => exact error (hx err rfl)
  | ok a => exact hf a rfl

theorem ite {c : Prop} [Decidable c] {x y : Except TemplateError β} (hx : c → Leads P Q x)
    (hy : ¬ c → Leads P Q y) : Leads P Q (if c then x else y) := by
  split
  · rename_i hc
    exact hx hc
  · rename_i hc
    exact hy hc

theorem weaken {C D : Prop} {x : Except TemplateError β} (h : Leads (Stops C) Q x) (hCD : C → D) :
    Leads (Stops D) Q x :=
  ⟨fun err herr => (h.1 err herr).imp_left fun hmissing => ⟨hmissing.1, hCD hmissing.2⟩, h.2⟩

end Leads

theorem stops_invalid (C : Prop) (name reason : String) : Stops C (.invalid name reason) :=
  .inr (TemplateError.other_invalid name reason)

theorem stops_geometry {C : Prop} {reason : String} {c : Char}
    (h : reason.toList.head? = some c) (hc : c ≠ 'm') : Stops C (.geometry reason) := by
  refine .inr fun name => ne_of_head ?_
  rw [TemplateError.head_missing]
  intro heq
  exact hc (Option.some.inj (h.symm.trans heq))

namespace Params

variable {p : Params} {C : Prop}

theorem required_of_number {name : String} {x : Float} (h : p.number? name = some x) :
    p.required name = .ok x := by
  rw [required, h]

theorem required_of_none {name : String} (h : p.number? name = none) :
    p.required name = .error (.missing name) := by
  rw [required, h]

theorem positive_of_none {name : String} (h : p.number? name = none) :
    p.positive name = .error (.missing name) := by
  rw [positive, required_of_none h]
  rfl

theorem stops_required {name : String} (h : p.number? name = none → C) (err : TemplateError)
    (herr : p.required name = .error err) : Stops C err := by
  cases hnumber : p.number? name with
  | none =>
    rw [required_of_none hnumber] at herr
    cases herr
    exact .inl ⟨⟨name, rfl⟩, h hnumber⟩
  | some x =>
    rw [required_of_number hnumber] at herr
    cases herr

theorem stops_positive {name : String} (h : p.number? name = none → C) (err : TemplateError)
    (herr : p.positive name = .error err) : Stops C err := by
  rcases error_of_bind herr with hmissing | ⟨x, -, hbound⟩
  · exact stops_required h err hmissing
  · split at hbound
    · cases hbound
      exact stops_invalid C _ _
    · cases hbound

end Params

/-- a number of `names` is not there -/
def Params.Lacks (p : Params) (names : List String) : Prop := ∃ name ∈ names, p.number? name = none

theorem Params.Lacks.tail {p : Params} {name : String} {names : List String}
    (h : p.Lacks (name :: names)) {x : Float} (hx : p.number? name = some x) : p.Lacks names := by
  obtain ⟨other, hmem, hnone⟩ := h
  rcases List.mem_cons.mp hmem with rfl | hmem
  · cases hx.symm.trans hnone
  · exact ⟨other, hmem, hnone⟩

/-- a missing parameter comes of `x` -/
def Misses {α : Type} (x : Except TemplateError α) : Prop := ∃ name, x = .error (.missing name)

namespace Misses

variable {α : Type} {p : Params} {name : String} {f : Float → Except TemplateError α}

theorem required {names : List String} (h : p.Lacks (name :: names))
    (hf : ∀ x, p.Lacks names → Misses (f x)) : Misses (p.required name >>= f) := by
  cases hnumber : p.number? name with
  | none =>
    refine ⟨name, ?_⟩
    rw [Params.required_of_none hnumber]
    rfl
  | some x =>
    rw [Params.required_of_number hnumber]
    exact hf x (h.tail hnumber)

theorem positive (h : p.Lacks [name]) : Misses (p.positive name >>= f) := by
  obtain ⟨other, hmem, hnone⟩ := h
  obtain rfl := List.mem_singleton.mp hmem
  refine ⟨other, ?_⟩
  rw [Params.positive_of_none hnone]
  rfl

end Misses

theorem stops_mapM {α β : Type} {C : Prop} {f : α → Except TemplateError β} (l : List α)
    (h : ∀ a err, f a = .error err → Stops C err) (err : TemplateError)
    (herr : l.mapM f = .error err) : Stops C err := by
  induction l with
  | nil => cases herr
  | cons a l ih =>
    rw [List.mapM_cons] at herr
    rcases error_of_bind herr with hhead | ⟨b, -, htail⟩
    · exact h a err hhead
    · rcases error_of_bind htail with hrest | ⟨bs, -, hpure⟩
      · exact ih hrest
      · cases hpure

/-- a scene without a warning that begins like the report of an error -/
def Scene.Calm (s : Scene) : Prop := ∀ w ∈ s.warnings, Figures.Calm w

theorem Scene.calm_of_none {s : Scene} (h : s.warnings = []) : s.Calm := by
  intro w hw
  rw [h] at hw
  exact absurd hw List.not_mem_nil

theorem calm_append {s : String} {c : Char} (h : s.toList.head? = some c) (hc : c ≠ 'R')
    (t : String) : Calm (s ++ t) := by
  intro heq
  exact hc (Option.some.inj ((head_append h t).symm.trans heq))

variable (params : Params) (pen : Pen)

/-! ### figures that need all their numbers -/

theorem Circle.stops_scene :
    Leads (Stops (params.Lacks ["radius"])) Scene.Calm (Circle.scene params pen) := by
  refine .bind (Params.stops_positive fun h => ⟨"radius", by decide, h⟩) fun radius _ => ?_
  exact .pure (Scene.calm_of_none rfl)

theorem Cylinder.stops_scene :
    Leads (Stops (params.Lacks ["radius", "height"])) Scene.Calm (Cylinder.scene params pen) := by
  refine .bind (Params.stops_positive fun h => ⟨"radius", by decide, h⟩) fun radius _ => ?_
  refine .bind (Params.stops_positive fun h => ⟨"height", by decide, h⟩) fun rise _ => ?_
  exact .pure (Scene.calm_of_none rfl)

theorem Cuboid.stops_scene : Leads (Stops (params.Lacks ["length", "width", "height"])) Scene.Calm
    (Cuboid.scene params pen) := by
  refine .bind (Params.stops_positive fun h => ⟨"length", by decide, h⟩) fun length _ => ?_
  refine .bind (Params.stops_positive fun h => ⟨"width", by decide, h⟩) fun depth _ => ?_
  refine .bind (Params.stops_positive fun h => ⟨"height", by decide, h⟩) fun rise _ => ?_
  exact .pure (Scene.calm_of_none rfl)

theorem Rectangle.stops_scene :
    Leads (Stops (params.Lacks ["width", "height"])) Scene.Calm (Rectangle.scene params pen) := by
  refine .bind (Params.stops_positive fun h => ⟨"width", by decide, h⟩) fun w _ => ?_
  refine .bind (Params.stops_positive fun h => ⟨"height", by decide, h⟩) fun h _ => ?_
  exact .pure (Scene.calm_of_none rfl)

theorem Angle.stops_scene :
    Leads (Stops (params.Lacks ["degrees"])) Scene.Calm (Angle.scene params pen) := by
  have hsize : ∀ err, Angle.size params = .error err → Stops (params.Lacks ["degrees"]) err := by
    intro err herr
    rcases error_of_bind herr with hmissing | ⟨x, -, hbound⟩
    · exact Params.stops_required (fun h => ⟨"degrees", by decide, h⟩) err hmissing
    · split at hbound
      · cases hbound
        exact stops_invalid _ _ _
      · cases hbound
  exact .bind hsize fun x _ => .pure (Scene.calm_of_none rfl)

theorem Triangle.stops_scene :
    Leads (Stops (params.Lacks ["a", "b", "c"])) Scene.Calm (Triangle.scene params pen) := by
  refine .bind (Params.stops_positive fun h => ⟨"a", by decide, h⟩) fun a _ => ?_
  refine .bind (Params.stops_positive fun h => ⟨"b", by decide, h⟩) fun b _ => ?_
  refine .bind (Params.stops_positive fun h => ⟨"c", by decide, h⟩) fun c _ => ?_
  refine .bind ?_ fun corners _ => .pure (Scene.calm_of_none rfl)
  intro err herr
  rw [Triangle.corners] at herr
  split at herr
  · cases herr
    refine stops_geometry (c := 's') ?_ (by decide)
    simp only [String.append_assoc]
    exact head_append (s := "sides ") rfl _
  · cases herr

theorem SeriesCircuit.stops_scene :
    Leads (Stops (params.Lacks ["voltage"])) Scene.Calm (SeriesCircuit.scene params pen) := by
  have hresistance : ∀ item err, SeriesCircuit.resistance item = .error err →
      Stops (params.Lacks ["voltage"]) err := by
    intro item err herr
    rw [SeriesCircuit.resistance] at herr
    split at herr
    · cases herr
    · cases herr
      exact stops_invalid _ _ _
  have hresistances : ∀ raw err, SeriesCircuit.resistances raw = .error err →
      Stops (params.Lacks ["voltage"]) err := by
    intro raw err herr
    rw [SeriesCircuit.resistances] at herr
    split at herr
    · cases herr
      exact stops_invalid _ _ _
    · exact stops_mapM _ hresistance err herr
  refine .bind (Params.stops_positive fun h => ⟨"voltage", by decide, h⟩) fun voltage _ => ?_
  refine .bind (hresistances _) fun rs _ => ?_
  refine .ite (fun _ => .bind (fun err herr => ?_) fun _ _ => ?_) fun _ => ?_
  · cases herr
    exact stops_invalid _ _ _
  · exact .pure (Scene.calm_of_none rfl)
  · exact .pure (Scene.calm_of_none rfl)

theorem BarChart.stops_scene : Leads (Stops False) Scene.Calm (BarChart.scene params pen) := by
  have hfrequency : ∀ item err, BarChart.frequency item = .error err → Stops False err := by
    intro item err herr
    rw [BarChart.frequency] at herr
    split at herr
    · cases herr
      exact stops_invalid _ _ _
    · split at herr
      · cases herr
        exact stops_invalid _ _ _
      · cases herr
  have hfrequencies : ∀ raw n err, BarChart.frequencies raw n = .error err → Stops False err := by
    intro raw n err herr
    rw [BarChart.frequencies] at herr
    split at herr
    · cases herr
      exact stops_invalid _ _ _
    · exact stops_mapM _ hfrequency err herr
  unfold BarChart.scene
  refine .ite (fun _ => .bind (fun err herr => ?_) fun _ _ => ?_) fun _ => ?_
  · cases herr
    exact stops_invalid _ _ _
  all_goals
    refine .bind (hfrequencies _ _) fun values _ => .pure fun w hw => ?_
    dsimp only at hw
    split at hw
    · obtain rfl := List.mem_singleton.mp hw
      simp only [String.append_assoc]
      exact calm_append rfl (by decide) _
    · exact absurd hw List.not_mem_nil

/-! ### figures that may lack a number -/

namespace BoxPlot

theorem stops_summary (err : TemplateError) (herr : Summary.ofParams params = .error err) :
    Stops (params.Lacks ["min", "q1", "median", "q3", "max"]) err := by
  refine (Leads.bind (Q := fun _ => True) (Params.stops_required fun h => ⟨"min", by decide, h⟩)
    fun min _ => ?_).1 err herr
  refine .bind (Params.stops_required fun h => ⟨"q1", by decide, h⟩) fun q1 _ => ?_
  refine .bind (Params.stops_required fun h => ⟨"median", by decide, h⟩) fun median _ => ?_
  refine .bind (Params.stops_required fun h => ⟨"q3", by decide, h⟩) fun q3 _ => ?_
  refine .bind (Params.stops_required fun h => ⟨"max", by decide, h⟩) fun max _ => ?_
  refine .ite (fun _ => .error ?_) fun _ => .pure trivial
  exact stops_geometry (c := 'f') rfl (by decide)

theorem stops_scene : Leads (Stops (params.Lacks ["min", "q1", "median", "q3", "max"] ∨
    (∃ s, Summary.ofParams params = .ok s) ∧ params.Lacks ["axisMin", "axisMax", "step"]))
    Scene.Calm (scene params pen) := by
  refine .bind (fun err herr => (stops_summary params err herr).imp_left fun h => ⟨h.1, .inl h.2⟩)
    fun s hs => ?_
  have hlacks : ∀ name ∈ ["axisMin", "axisMax", "step"], params.number? name = none →
      params.Lacks ["min", "q1", "median", "q3", "max"] ∨
        (∃ s, Summary.ofParams params = .ok s) ∧ params.Lacks ["axisMin", "axisMax", "step"] :=
    fun name hname h => .inr ⟨⟨s, hs⟩, name, hname, h⟩
  refine .bind (Params.stops_required (hlacks "axisMin" (by decide))) fun lo _ => ?_
  refine .bind (Params.stops_required (hlacks "axisMax" (by decide))) fun hi _ => ?_
  refine .bind (Params.stops_positive (hlacks "step" (by decide))) fun step _ => ?_
  refine .ite (fun _ => .bind (fun err herr => ?_) fun _ _ => ?_) fun _ => ?_
  · cases herr
    exact stops_invalid _ _ _
  all_goals
    dsimp only
    split
    · refine .pure fun w hw => ?_
      dsimp only at hw
      split at hw
      · obtain rfl := List.mem_singleton.mp hw
        unfold Calm
        decide
      · exact absurd hw List.not_mem_nil
    · exact .error (stops_invalid _ _ _)

theorem misses_scene (h : (∃ s, Summary.ofParams params = .ok s) ∧
    params.Lacks ["axisMin", "axisMax", "step"]) : Misses (scene params pen) := by
  obtain ⟨⟨s, hs⟩, h⟩ := h
  rw [scene, hs]
  exact .required h fun _ h => .required h fun _ h => .positive h

end BoxPlot

namespace CoordinateGrid

theorem calm_plot (f : Frame) (name : String) (given : Position) :
    ∀ w ∈ (plot params pen f name given).2, Calm w := by
  intro w hw
  rw [plot] at hw
  split at hw
  · obtain rfl := List.mem_singleton.mp hw
    simp only [String.append_assoc]
    exact calm_append rfl (by decide) _
  · split at hw
    · obtain rfl := List.mem_singleton.mp hw
      simp only [String.append_assoc]
      exact calm_append rfl (by decide) _
    · exact absurd hw List.not_mem_nil

theorem stops_scene : Leads (Stops (params.Lacks ["xMin", "xMax", "yMin", "yMax", "step"]))
    Scene.Calm (scene params pen) := by
  refine .bind (Params.stops_required fun h => ⟨"xMin", by decide, h⟩) fun xMin _ => ?_
  refine .bind (Params.stops_required fun h => ⟨"xMax", by decide, h⟩) fun xMax _ => ?_
  refine .bind (Params.stops_required fun h => ⟨"yMin", by decide, h⟩) fun yMin _ => ?_
  refine .bind (Params.stops_required fun h => ⟨"yMax", by decide, h⟩) fun yMax _ => ?_
  refine .bind (Params.stops_positive fun h => ⟨"step", by decide, h⟩) fun step _ => ?_
  have hthrow : ∀ (name reason : String) (err : TemplateError),
      (throw (.invalid name reason) : Except TemplateError PUnit) = .error err →
        Stops (params.Lacks ["xMin", "xMax", "yMin", "yMax", "step"]) err := by
    intro name reason err herr
    cases herr
    exact stops_invalid _ _ _
  -- either check of the bounds may fail before the ticks are counted
  refine .ite (fun _ => .bind (hthrow _ _) fun _ _ => ?_) fun _ => ?_
  all_goals
    refine .ite (fun _ => .bind (hthrow _ _) fun _ _ => ?_) fun _ => ?_
  all_goals
    dsimp only
    split
    · split
      · refine .pure fun w hw => ?_
        obtain ⟨plotted, hplotted, hw⟩ := List.mem_flatMap.mp hw
        obtain ⟨e, -, rfl⟩ := List.mem_map.mp hplotted
        exact calm_plot params pen _ e.1 e.2 w hw
      · exact .error (stops_invalid _ _ _)
    · exact .error (stops_invalid _ _ _)

theorem misses_scene (h : params.Lacks ["xMin", "xMax", "yMin", "yMax", "step"]) :
    Misses (scene params pen) :=
  .required h fun _ h => .required h fun _ h => .required h fun _ h => .required h fun _ h =>
    .positive h

end CoordinateGrid

namespace NumberLine

/-- the number line gets as far as the marked point -/
def AsksPoint (p : Params) : Prop :=
  p.visible "showPoint" = true ∧ ∃ lo hi step shade marks, p.required "min" = .ok lo ∧
    p.required "max" = .ok hi ∧ p.positive "step" = .ok step ∧
    Shade.ofText (p.text "shade") = .ok shade ∧ ¬ hi ≤ lo ∧
    Template.ticks lo hi step tickLimit = some marks

theorem stops_shade {C : Prop} (name : String) (err : TemplateError)
    (herr : Shade.ofText name = .error err) : Stops C err := by
  rw [Shade.ofText] at herr
  split at herr
  · cases herr
  · split at herr
    · cases herr
    · split at herr
      · cases herr
      · cases herr
        exact stops_invalid _ _ _

theorem stops_scene : Leads (Stops (params.Lacks ["min", "max", "step"] ∨
    params.Lacks ["point"] ∧ AsksPoint params)) Scene.Calm (scene params pen) := by
  refine .bind (Params.stops_required fun h => .inl ⟨"min", by decide, h⟩) fun lo hlo => ?_
  refine .bind (Params.stops_required fun h => .inl ⟨"max", by decide, h⟩) fun hi hhi => ?_
  refine .bind (Params.stops_positive fun h => .inl ⟨"step", by decide, h⟩) fun step hstep => ?_
  refine .bind (stops_shade _) fun shade hshade => ?_
  refine .ite (fun _ => .bind (fun err herr => ?_) nofun) fun hbounds => ?_
  · cases herr
    exact stops_invalid _ _ _
  dsimp only
  split
  · rename_i marks hmarks
    refine .ite (fun hshown => .bind ?_ fun v _ => .ite (fun _ => ?_) fun _ => ?_) fun _ => ?_
    · exact Params.stops_required fun h => .inr ⟨⟨"point", by decide, h⟩, hshown, lo, hi, step,
        shade, marks, hlo, hhi, hstep, hshade, hbounds, hmarks⟩
    · refine .pure fun w hw => ?_
      obtain rfl := List.mem_singleton.mp hw
      simp only [String.append_assoc]
      exact calm_append rfl (by decide) _
    · exact .pure (Scene.calm_of_none rfl)
    · exact .pure (Scene.calm_of_none rfl)
  · exact .error (stops_invalid _ _ _)

theorem misses_scene (h : params.Lacks ["min", "max", "step"] ∨
    params.Lacks ["point"] ∧ AsksPoint params) : Misses (scene params pen) := by
  rcases h with h | ⟨hpoint, hshown, lo, hi, step, shade, marks, hlo, hhi, hstep, hshade, hbounds,
    hmarks⟩
  · exact .required h fun _ h => .required h fun _ h => .positive h
  · have hnone : params.number? "point" = none := by
      obtain ⟨name, hname, hnone⟩ := hpoint
      obtain rfl := List.mem_singleton.mp hname
      exact hnone
    refine ⟨"point", ?_⟩
    rw [scene, hlo, hhi, hstep, hshade, Params.required_of_none hnone, hshown]
    simp only [bind, Except.bind, if_neg hbounds, hmarks]
    rfl

end NumberLine

/-! ### all figures -/

namespace FigureKind

/-- the numbers that a figure asks for and that its schema requires -/
def needed : FigureKind → List String
  | coordinateGrid | numberLine | barChart => []
  | triangle => ["a", "b", "c"]
  | rectangle => ["width", "height"]
  | circle => ["radius"]
  | angle => ["degrees"]
  | cuboid => ["length", "width", "height"]
  | cylinder => ["radius", "height"]
  | boxPlot => ["min", "q1", "median", "q3", "max"]
  | seriesCircuit => ["voltage"]

/-- the numbers that a figure asks for and that its schema does not require -/
def optional : FigureKind → List String
  | coordinateGrid => ["xMin", "xMax", "yMin", "yMax", "step"]
  | numberLine => ["min", "max", "step", "point"]
  | boxPlot => ["axisMin", "axisMax", "step"]
  | _ => []

/-- Where the parameters `p` get so far that a figure asks for a number that its schema does not
require, and that number lacks. -/
def StoppedBy (k : FigureKind) (lacks : String → Prop) (p : Params) : Prop :=
  match k with
  | coordinateGrid => ∃ name ∈ ["xMin", "xMax", "yMin", "yMax", "step"], lacks name
  | numberLine => (∃ name ∈ ["min", "max", "step"], lacks name) ∨
      (∃ name ∈ ["point"], lacks name) ∧ NumberLine.AsksPoint p
  | boxPlot => (∃ s, BoxPlot.Summary.ofParams p = .ok s) ∧
      ∃ name ∈ ["axisMin", "axisMax", "step"], lacks name
  | _ => False

theorem stops_scene (k : FigureKind) :
    Leads (Stops (params.Lacks k.needed ∨ k.StoppedBy (fun name =>
      params.number? name = none) params))
      Scene.Calm (k.scene params pen) := by
  cases k with
  | coordinateGrid => exact (CoordinateGrid.stops_scene params pen).weaken .inr
  | numberLine => exact (NumberLine.stops_scene params pen).weaken .inr
  | boxPlot => exact BoxPlot.stops_scene params pen
  | barChart => exact (BarChart.stops_scene params pen).weaken False.elim
  | triangle => exact (Triangle.stops_scene params pen).weaken .inl
  | rectangle => exact (Rectangle.stops_scene params pen).weaken .inl
  | circle => exact (Circle.stops_scene params pen).weaken .inl
  | angle => exact (Angle.stops_scene params pen).weaken .inl
  | cuboid => exact (Cuboid.stops_scene params pen).weaken .inl
  | cylinder => exact (Cylinder.stops_scene params pen).weaken .inl
  | seriesCircuit => exact (SeriesCircuit.stops_scene params pen).weaken .inl

theorem misses_scene (k : FigureKind)
    (h : k.StoppedBy (fun name => params.number? name = none) params) :
    Misses (k.scene params pen) := by
  cases k with
  | coordinateGrid => exact CoordinateGrid.misses_scene params pen h
  | numberLine => exact NumberLine.misses_scene params pen h
  | boxPlot => exact BoxPlot.misses_scene params pen h
  | _ => exact h.elim

end FigureKind

end Figures
