import Figures.Proofs.Figure.Chart
import Figures.Proofs.Figure.FixedIds
import Figures.Proofs.Markup.Root

/-!
# Figures with ticks that are named by their numbers

* `RoundedApart xs`              no two of the numbers are rounded to the same hundredth
* `Params.TicksApart`            so it is with the ticks between two bounds of the parameters
* `NumberLine.nodup_ids_iff`, `BoxPlot.nodup_ids_iff`   no id occurs twice if and only if the ticks
  are that far apart
* `BarChart.nodup_ids_iff`       the same for the steps of a bar chart

A tick has the rounded number in the name of its line and of its text.
-/

namespace Figures

open Drawing (Carries)

/-- no two of the numbers are rounded to the same hundredth -/
def RoundedApart (xs : List Float) : Prop := (xs.map (rounded 2)).Nodup

/-- the rounded number behind a beginning -/
def Kind.hundredths (beginning : String) : Kind Float := ⟨beginning, tidy 2⟩

/-! ### ticks between two bounds -/

namespace Params

variable {params : Params}

theorem number?_of_required {name : String} {x : Float} (h : params.required name = .ok x) :
    params.number? name = some x := by
  unfold required at h
  split at h
  · rename_i hx
    exact hx.trans (congrArg some (Except.ok.inj h))
  · cases h

theorem number?_of_positive {name : String} {x : Float} (h : params.positive name = .ok x) :
    params.number? name = some x := by
  obtain ⟨y, hy, h⟩ := ok_of_bind h
  split at h
  · cases h
  · cases h
    exact number?_of_required hy

/-- no two of the ticks between two bounds are rounded to the same hundredth -/
def TicksApart (params : Params) (lo hi step : String) (limit : ℕ) : Prop :=
  ∀ x y d marks, params.number? lo = some x → params.number? hi = some y →
    params.number? step = some d → Template.ticks x y d limit = some marks → RoundedApart marks

theorem ticksApart_iff {lo hi step : String} {limit : ℕ} {x y d : Float} {marks : List Float}
    (hlo : params.required lo = .ok x) (hhi : params.required hi = .ok y)
    (hstep : params.positive step = .ok d) (hmarks : Template.ticks x y d limit = some marks) :
    params.TicksApart lo hi step limit ↔ RoundedApart marks := by
  refine ⟨fun h => h x y d marks (number?_of_required hlo) (number?_of_required hhi)
    (number?_of_positive hstep) hmarks, ?_⟩
  intro h x' y' d' marks' hx' hy' hd' hmarks'
  obtain rfl := Option.some.inj ((number?_of_required hlo).symm.trans hx')
  obtain rfl := Option.some.inj ((number?_of_required hhi).symm.trans hy')
  obtain rfl := Option.some.inj ((number?_of_positive hstep).symm.trans hd')
  exact Option.some.inj (hmarks.symm.trans hmarks') ▸ h

end Params

/-- the line and the text of a tick -/
def tickKinds : List (Kind Float) :=
  [.hundredths (Element.line.id "tick"), .hundredths (Element.text.id "tick")]

theorem apart_tickKinds : tickKinds.Pairwise fun p q => Apart p.beginning q.beginning := by
  decide

theorem nodup_ticks_iff {f : Float → List String} (hf : Kind.Names tickKinds f)
    (hline : ∀ v, Element.line.id ("tick" ++ tidy 2 v) ∈ f v) (marks : List Float) :
    (marks.flatMap f).Nodup ↔ RoundedApart marks := by
  have hrest : ∀ k ∈ tickKinds, k.rest = tidy 2 := by simp [tickKinds, Kind.hundredths]
  refine Kind.nodup_iff apart_tickKinds hf (fun k hk d e h => ?_)
    (k := .hundredths (Element.line.id "tick")) (fun v _ => ?_) fun d e => tidy_eq_iff.mpr
  · rw [hrest k hk] at h
    exact tidy_eq_iff.mp h
  · rw [Kind.text, Kind.hundredths, ← Element.id_append]
    exact hline v

/-- a scene whose loose ids are those of its ticks -/
theorem Vocabulary.nodup_iff_roundedApart (v : Vocabulary) {width height : Float}
    {warnings : List String} {d : Drawing} {keys : List String} {marks : List Float}
    {f : Float → List String} (hbeginnings : v.beginnings = tickKinds.map Kind.beginning)
    (hf : Kind.Names tickKinds f) (hline : ∀ v, Element.line.id ("tick" ++ tidy 2 v) ∈ f v)
    (h : d.Carries keys (marks.flatMap f)) (hkeys : keys = v.keys) :
    (Scene.mk width height v.root d warnings).ids.Nodup ↔ RoundedApart marks :=
  (v.nodup_ids_iff h hkeys (hbeginnings ▸ Kind.begins hf marks)).trans
    (nodup_ticks_iff hf hline marks)

variable (params : Params) (pen : Pen)

namespace NumberLine

/-- the ids of a number line, without those of its ticks -/
def vocabulary : Vocabulary where
  root := "number-line"
  keys := [Element.line.id "axis", Element.mark.id "arrow-right", Element.mark.id "arrow-left",
    Element.group.id "ticks", Element.line.id "shade", Element.point.id "point",
    Element.text.id "point"]
  beginnings := tickKinds.map Kind.beginning
  nodup := by decide
  apart := by decide

theorem names_tick (xOf : Float → Float) :
    Kind.Names tickKinds fun v => (tick params pen v (xOf v)).ids := by
  intro v
  refine Drawing.Carries.subperm ?_
  simp only [tickKinds, Kind.hundredths, List.map_cons, List.map_nil, Kind.text,
    ← Element.id_append]
  exact (pen.carries_rule _ _ _ _).append ((pen.carries_text _ _ _ _ _).maybe _)

theorem mem_ids_tick (v x : Float) :
    Element.line.id ("tick" ++ tidy 2 v) ∈ (tick params pen v x).ids := by
  simp [tick]

theorem carries_axis : (axis params pen).Carries
    ([Element.line.id "axis"] ++ ([Element.mark.id "arrow-right"] ++
      [Element.mark.id "arrow-left"]))
    [] :=
  (pen.carries_rule _ _ _ _).append
    (((pen.carries_polygon _ _ _ _).append (pen.carries_polygon _ _ _ _)).maybe _)

theorem carries_line (xOf : Float → Float) (marks : List Float) : Drawing.Carries
    (axis params pen ++ Pen.group "ticks" (marks.flatMap fun v => tick params pen v (xOf v)))
    ([Element.line.id "axis"] ++ ([Element.mark.id "arrow-right"] ++
      [Element.mark.id "arrow-left"]) ++ [Element.group.id "ticks"])
    (marks.flatMap fun v => (tick params pen v (xOf v)).ids) := by
  rw [← Drawing.ids_flatMap]
  exact (carries_axis params pen).fixed_append (.group (.free _) "ticks")

theorem carries_marked (shade : Shade) (p : Point) : (marked params pen shade p).Carries
    ([Element.line.id "shade"] ++ [Element.point.id "point"] ++ [Element.text.id "point"]) [] := by
  unfold marked
  refine .append_fixed (.append_fixed ?shading ?dot) (pen.carries_label _ _ _)
  case shading =>
    split
    · exact .fixed (Drawing.ids_element (by simp [Piece.number, Element.forms]) (by simp))
    · exact ⟨[], List.nil_sublist _, List.Perm.refl _⟩
  case dot =>
    refine .fixed (Drawing.ids_element (by simp [Piece.number, Element.forms]) ?_)
    dsimp only
    split <;> simp

/-- no id of a number line occurs twice if and only if no two ticks are rounded to the same
hundredth -/
theorem nodup_ids_iff : Gives (fun s => s.ids.Nodup ↔
    params.TicksApart "min" "max" "step" tickLimit)
    (scene params pen) := by
  refine .bind fun lo hlo => .bind fun hi hhi => .bind fun step hstep => .bind fun shade _ =>
    .ite (fun _ => .bind nofun) fun _ => ?_
  dsimp only
  split
  · rename_i marks hmarks
    rw [Params.ticksApart_iff hlo hhi hstep hmarks]
    refine .ite (fun _ => .bind fun v _ => .ite (fun _ => .pure ?outside) fun _ => .pure ?inside)
      fun _ => .pure ?bare
    case inside =>
      exact vocabulary.nodup_iff_roundedApart rfl (names_tick params pen _)
        (fun v => mem_ids_tick params pen v _)
        ((carries_line params pen _ marks).append_fixed (carries_marked params pen shade _)) rfl
    all_goals
      exact vocabulary.nodup_iff_roundedApart rfl (names_tick params pen _)
        (fun v => mem_ids_tick params pen v _)
        ((carries_line params pen _ marks).weaken (List.sublist_append_left _
          [Element.line.id "shade", Element.point.id "point", Element.text.id "point"])) rfl
  · exact .error _

end NumberLine

namespace BoxPlot

theorem names_tick (xOf : Float → Float) :
    Kind.Names tickKinds fun v => (tick pen v (xOf v)).ids := by
  intro v
  refine Drawing.Carries.subperm ?_
  simp only [tickKinds, Kind.hundredths, List.map_cons, List.map_nil, Kind.text,
    ← Element.id_append]
  exact (pen.carries_rule _ _ _ _).append (pen.carries_text _ _ _ _ _)

theorem mem_ids_tick (v x : Float) : Element.line.id ("tick" ++ tidy 2 v) ∈ (tick pen v x).ids := by
  simp [tick]

/-- the ids of whiskers, box and median -/
def plotKeys : List String :=
  ["whisker-low", "whisker-high", "cap-min", "cap-max"].map Element.line.id ++
    [Element.bar.id "box", Element.line.id "median"]

def valueKeys : List String := ["min", "q1", "median", "q3", "max"].map Element.text.id

/-- the ids of a box plot, without those of its ticks -/
def vocabulary : Vocabulary where
  root := "box-plot"
  keys := [Element.text.id "title", Element.group.id "axis", Element.line.id "axis"] ++
    Element.group.id "plot" :: plotKeys ++ Element.group.id "values" :: valueKeys
  beginnings := tickKinds.map Kind.beginning
  nodup := by decide
  apart := by decide

theorem carries_plot (s : Summary) (xOf : Float → Float) : (plot pen s xOf).Carries plotKeys [] :=
  .append (.append
    (.append (.append (.append (pen.carries_segment _ _ _) (pen.carries_segment _ _ _))
    (pen.carries_segment _ _ _)) (pen.carries_segment _ _ _)) (.fixed (ids_rect _ _ _ _ _ _ _)))
    (pen.carries_segment _ _ _)

theorem carries_values (s : Summary) (xOf : Float → Float) : Drawing.Carries
    (s.entries.flatMap fun e =>
      pen.text e.1 (tidy 2 e.2) ⟨xOf e.2, boxTop - 12.0⟩ .middle Cls.sideText)
    valueKeys [] := by
  simp only [Summary.entries, List.flatMap_cons, List.flatMap_nil]
  exact (pen.carries_text _ _ _ _ _).append <| (pen.carries_text _ _ _ _ _).append <|
    (pen.carries_text _ _ _ _ _).append <| (pen.carries_text _ _ _ _ _).append <|
    (pen.carries_text _ _ _ _ _).append (.free [])

theorem carries_ticks (xOf : Float → Float) (marks : List Float) :
    Drawing.Carries (marks.flatMap fun v => tick pen v (xOf v)) []
      (marks.flatMap fun v => (tick pen v (xOf v)).ids) :=
  Drawing.ids_flatMap marks _ ▸ .free _

theorem carries_drawing (s : Summary) (xOf : Float → Float) (marks : List Float) : Drawing.Carries
    (pen.label "title" (params.label "title") ⟨width / 2.0, 26.0⟩ ++
      Pen.group "axis"
        (pen.rule "axis" ⟨margin, axisY⟩ ⟨width - margin, axisY⟩ Cls.axis ++
          marks.flatMap fun v => tick pen v (xOf v)) ++
      Pen.group "plot" (plot pen s xOf) ++
      Drawing.when (params.visible "showValues")
        (Pen.group "values"
          (s.entries.flatMap fun e =>
            pen.text e.1 (tidy 2 e.2) ⟨xOf e.2, boxTop - 12.0⟩ .middle Cls.sideText)))
    ([Element.text.id "title", Element.group.id "axis", Element.line.id "axis"] ++
      Element.group.id "plot" :: plotKeys ++ Element.group.id "values" :: valueKeys)
    (marks.flatMap fun v => (tick pen v (xOf v)).ids) :=
  .append_fixed (.append_fixed (.fixed_append (pen.carries_label _ _ _)
    (.group (.fixed_append (pen.carries_rule _ _ _ _) (carries_ticks pen xOf marks)) _))
    (.group (carries_plot pen s xOf) _))
    (.maybe (.group (carries_values pen s xOf) _) _)

/-- no id of a box plot occurs twice if and only if no two ticks are rounded to the same
hundredth -/
theorem nodup_ids_iff :
    Gives (fun s => s.ids.Nodup ↔ params.TicksApart "axisMin" "axisMax" "step" tickLimit)
      (scene params pen) := by
  refine .bind fun s _ => .bind fun lo hlo => .bind fun hi hhi => .bind fun step hstep =>
    .ite (fun _ => .bind nofun) fun _ => ?_
  dsimp only
  split
  · rename_i marks hmarks
    rw [Params.ticksApart_iff hlo hhi hstep hmarks]
    exact .pure (vocabulary.nodup_iff_roundedApart rfl (names_tick pen _)
      (fun v => mem_ids_tick pen v _)
      (carries_drawing params pen s
        (fun v => margin + (clamp lo hi v - lo) * ((width - 2.0 * margin) / (hi - lo))) marks) rfl)
  · exact .error _

end BoxPlot

namespace BarChart

def stepKinds (step : Float) : List (Kind ℕ) :=
  [⟨Element.line.id "grid", fun i => tidy 2 (Float.ofNat i * step)⟩,
   ⟨Element.text.id "tick", fun i => tidy 2 (Float.ofNat i * step)⟩]

/-- a bar, its category and its value -/
def barKinds : List (Kind ((String × Float) × ℕ)) :=
  [⟨Element.bar.id "", fun e => Nat.repr e.2⟩, ⟨Element.text.id "category", fun e => Nat.repr e.2⟩,
   ⟨Element.text.id "value", fun e => Nat.repr e.2⟩]

/-- the ids of a bar chart, without those of its steps and bars -/
def vocabulary : Vocabulary where
  root := "bar-chart"
  keys := [Element.text.id "title", Element.group.id "axes", Element.line.id "x-axis",
    Element.line.id "y-axis", Element.text.id "x-axis", Element.text.id "y-axis",
    Element.group.id "bars"]
  beginnings := [Element.line.id "grid", Element.text.id "tick"] ++ barKinds.map Kind.beginning
  nodup := by decide
  apart := by decide

theorem names_stepMark (top step : Float) :
    Kind.Names (stepKinds step) fun i => (stepMark params pen top step i).ids := by
  intro i
  refine Drawing.Carries.subperm ?_
  simp only [stepKinds, List.map_cons, List.map_nil, Kind.text, ← Element.id_append]
  exact ((pen.carries_rule _ _ _ _).maybe _).append (pen.carries_text _ _ _ _ _)

theorem names_bar (top slot : Float) :
    Kind.Names barKinds fun e => (bar params pen top slot e.1.1 e.1.2 e.2).ids := by
  intro e
  refine Drawing.Carries.subperm ?_
  simp only [barKinds, List.map_cons, List.map_nil, Kind.text, ← Element.id_append]
  exact ((Drawing.Carries.fixed (ids_rect _ _ _ _ _ _ _)).append
    (pen.carries_text _ _ _ _ _)).append
    ((pen.carries_text _ _ _ _ _).maybe _)

def steps (top step : Float) : List Float :=
  (List.range (lineCount top step)).map fun i => Float.ofNat i * step

theorem nodup_stepMarks_iff (top step : Float) :
    ((List.range (lineCount top step)).flatMap fun i =>
      (stepMark params pen top step i).ids).Nodup ↔
      RoundedApart (steps top step) := by
  have hrest : ∀ k ∈ stepKinds step, k.rest = fun i => tidy 2 (Float.ofNat i * step) := by
    simp [stepKinds]
  have happart : (stepKinds step).Pairwise fun p q => Apart p.beginning q.beginning := by
    have hcheck : Apart (Element.line.id "grid") (Element.text.id "tick") := by decide
    simpa [stepKinds] using hcheck
  rw [RoundedApart, steps, List.map_map]
  refine Kind.nodup_iff happart (names_stepMark params pen top step) (fun k hk d e h => ?_)
    (k := ⟨Element.text.id "tick", fun i => tidy 2 (Float.ofNat i * step)⟩) (fun i _ => ?_)
    fun d e => tidy_eq_iff.mpr
  · rw [hrest k hk] at h
    exact tidy_eq_iff.mp h
  · have hsome : tidy 2 (Float.ofNat i * step) ≠ "" := by
      rw [Ne, ← String.isEmpty_iff, Markup.isEmpty_tidy]
      decide
    rw [Kind.text, ← Element.id_append]
    simp [stepMark, hsome]

theorem nodup_bars (top slot : Float) (l : List (String × Float)) :
    (l.zipIdx.flatMap fun e => (bar params pen top slot e.1.1 e.1.2 e.2).ids).Nodup := by
  refine Kind.nodup (g := Prod.snd) (by decide : barKinds.Pairwise _)
    (names_bar params pen top slot) (by simp [barKinds]) ?_
  rw [List.zipIdx_map_snd]
  exact List.nodup_range'

theorem begins_steps (top step : Float) : Begins [Element.line.id "grid", Element.text.id "tick"]
    ((List.range (lineCount top step)).flatMap fun i => (stepMark params pen top step i).ids) :=
  Kind.begins (names_stepMark params pen top step) _

theorem begins_bars (top slot : Float) (l : List (String × Float)) :
    Begins [Element.bar.id "", Element.text.id "category", Element.text.id "value"]
      (l.zipIdx.flatMap fun e => (bar params pen top slot e.1.1 e.1.2 e.2).ids) :=
  Kind.begins (names_bar params pen top slot) _

/-- bars and steps have no ids in common, and those of the bars are apart -/
theorem nodup_loose_iff (top step slot : Float) (l : List (String × Float)) :
    (((List.range (lineCount top step)).flatMap fun i => (stepMark params pen top step i).ids) ++
      l.zipIdx.flatMap fun e => (bar params pen top slot e.1.1 e.1.2 e.2).ids).Nodup ↔
        RoundedApart (steps top step) := by
  rw [List.nodup_append', nodup_stepMarks_iff]
  exact and_iff_left ⟨nodup_bars params pen top slot l,
    (begins_steps params pen top step).disjoint (begins_bars params pen top slot l) (by decide)⟩

theorem carries_yAxisName : (yAxisName params pen).Carries [Element.text.id "y-axis"] [] := by
  refine .maybe (.fixed (Drawing.ids_label ?_)) _
  simp

theorem carries_axes (top step : Float) : (axes params pen top step).Carries
    [Element.line.id "x-axis", Element.line.id "y-axis", Element.text.id "x-axis",
      Element.text.id "y-axis"]
    ((List.range (lineCount top step)).flatMap fun i => (stepMark params pen top step i).ids) := by
  rw [← Drawing.ids_flatMap]
  exact .append_fixed (.append_fixed (.append_fixed (.append_fixed (.free _)
    (pen.carries_rule _ _ _ _)) (pen.carries_rule _ _ _ _)) (pen.carries_text _ _ _ _ _))
    (carries_yAxisName params pen)

theorem carries_bars (top slot : Float) (l : List ((String × Float) × ℕ)) : Drawing.Carries
    (l.flatMap fun e => bar params pen top slot e.1.1 e.1.2 e.2) []
    (l.flatMap fun e => (bar params pen top slot e.1.1 e.1.2 e.2).ids) :=
  Drawing.ids_flatMap l _ ▸ .free _

/-- no two steps of the axis of a chart are rounded to the same hundredth -/
def StepsApart (params : Params) : Prop :=
  ∀ values, frequencies (params.text "frequencies") (Text.entries (params.text "categories")).length
      = .ok values →
    let m := demand ((params.number? "yMax").getD 0.0) values
    RoundedApart (steps (axis m).1 (axis m).2)

theorem nodup_ids_iff : Gives (fun s => s.ids.Nodup ↔ StepsApart params) (scene params pen) := by
  unfold scene
  refine .ite (fun _ => .bind nofun) fun _ => .bind fun values hvalues => ?_
  have hsteps : StepsApart params ↔ RoundedApart (steps
      (axis (demand ((params.number? "yMax").getD 0.0) values)).1
      (axis (demand ((params.number? "yMax").getD 0.0) values)).2) := by
    refine ⟨fun h => h values hvalues, fun h values' hvalues' => ?_⟩
    obtain rfl := Except.ok.inj (hvalues.symm.trans hvalues')
    exact h
  rw [hsteps]
  dsimp only
  rw [← demand]
  obtain ⟨top, step⟩ := axis (demand ((params.number? "yMax").getD 0.0) values)
  exact .pure ((vocabulary.nodup_ids_iff (.append
    (.fixed_append (pen.carries_label _ _ _) (.group (carries_axes params pen top step) _))
    (.group (carries_bars params pen top _ _) _)) rfl
    ((begins_steps params pen top step).append (begins_bars params pen top _ _))).trans
      (nodup_loose_iff params pen top step _ _))

end BarChart

end Figures
