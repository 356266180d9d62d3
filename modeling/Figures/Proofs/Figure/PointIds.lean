import Figures.Proofs.Figure.TickIds
import Figures.Proofs.Json.Decoder

/-!
# Figures with texts that share a name

* `Triangle.Unshared`            no angle with its size written has a vertex with its label written
* `Triangle.nodup_ids_iff`       no id of a triangle occurs twice if and only if that is so
* `CoordinateGrid.Clear`         grid and ticks are apart, and no point is named like a text of the
                                 axes
* `CoordinateGrid.nodup_ids_iff` no id of a coordinate grid occurs twice if and only if that is so

In a triangle the size of an angle and the label of its vertex have one name. In a coordinate grid
the points have the names that the caller chose, and so have their texts.
-/

namespace Figures

open Drawing (Carries)

variable (params : Params) (pen : Pen)

namespace Triangle

/-- the ids of a triangle, without those of the texts at its vertices -/
def vocabulary : Vocabulary where
  root := "triangle"
  keys := Element.group.id "sides" :: ["AB", "BC", "CA"].map Element.line.id ++
    Element.group.id "angles" :: ["A", "B", "C"].flatMap (fun name =>
      [Element.mark.id ("right-" ++ name), Element.arc.id name]) ++
    Element.group.id "side-lengths" :: ["c", "a", "b"].map (fun name =>
      Element.text.id ("side-" ++ name)) ++
    Element.group.id "vertices" :: ["A", "B", "C"].map Element.point.id
  beginnings := ["A", "B", "C"].map Element.text.id
  nodup := by decide
  apart := by decide

/-- the size of an angle is written: angles are shown, and it is not marked as right -/
def writesAngle (params : Params) (vertex p q : Point) : Bool :=
  !(decide (((AngleArc.between vertex p q 28.0).degrees - 90.0).abs < rightTolerance) &&
    params.visible "showRightAngle") && params.visible "showAngles"

def writesVertex (params : Params) (name : String) : Bool :=
  params.visible "showVertexLabels" && !(params.label name).isEmpty

theorem isEmpty_degreesText (x : Float) : (Template.degreesText x).isEmpty = false := by
  rw [Template.degreesText, Bool.eq_false_iff, Ne, String.isEmpty_iff]
  intro h
  have hlength := congrArg (fun s => s.toList.length) h
  simp [String.toList_append] at hlength

theorem carries_angleMark (name : String) (vertex p q : Point) :
    (angleMark params pen name vertex p q).Carries
      [Element.mark.id ("right-" ++ name), Element.arc.id name]
      (if writesAngle params vertex p q then [Element.text.id name] else []) := by
  have hsize := pen.ids_arcLabel name
    (Template.degreesText (AngleArc.between vertex p q 28.0).degrees) vertex
    (AngleArc.between vertex p q 28.0)
  rw [isEmpty_degreesText, if_neg Bool.false_ne_true] at hsize
  have harc := (pen.carries_arc name (AngleArc.between vertex p q 28.0)).fixed_append
    (hsize ▸ Carries.free _)
  have hparts := Carries.ite (decide (((AngleArc.between vertex p q 28.0).degrees - 90.0).abs
    < rightTolerance) && params.visible "showRightAngle")
    (pen.carries_rightAngle ("right-" ++ name) vertex p q 16.0)
    (Carries.ite (params.visible "showAngles") harc (.free []))
  unfold writesAngle
  generalize hright : (decide (((AngleArc.between vertex p q 28.0).degrees - 90.0).abs
    < rightTolerance) && params.visible "showRightAngle") = right at hparts ⊢
  cases right <;> simpa [angleMark, hright] using hparts

theorem carries_vertexMark (center : Point) (name : String) (p : Point) :
    (vertexMark params pen center name p).Carries [Element.point.id name]
      (if writesVertex params name then [Element.text.id name] else []) := by
  have hparts := (pen.carries_dot name p).fixed_append
    ((Carries.free (pen.label name (params.label name) (p.outward center 22.0))).when
      (params.visible "showVertexLabels"))
  rw [pen.ids_label] at hparts
  unfold writesVertex
  cases hempty : (params.label name).isEmpty <;> simpa [hempty, vertexMark] using hparts

def texts (a b c : Bool) : List String :=
  (if a then [Element.text.id "A"] else []) ++ (if b then [Element.text.id "B"] else []) ++
    (if c then [Element.text.id "C"] else [])

theorem nodup_texts_iff : ∀ a b c x y z : Bool, (texts a b c ++ texts x y z).Nodup ↔
    ¬ (a = true ∧ x = true) ∧ ¬ (b = true ∧ y = true) ∧ ¬ (c = true ∧ z = true) := by
  decide

theorem mem_texts : ∀ a b c x y z : Bool, ∀ s ∈ texts a b c ++ texts x y z,
    s ∈ ["A", "B", "C"].map Element.text.id := by
  decide

/-- no vertex of the triangle on the canvas has both its label and the size of its angle written -/
def Unshared (params : Params) : Prop :=
  ∀ a b c m, params.positive "a" = .ok a → params.positive "b" = .ok b →
    params.positive "c" = .ok c → corners a b c = .ok m →
    let place := fitting epsilon width height 70.0 m.1 [m.2.1, m.2.2]
    let pa := place m.1
    let pb := place m.2.1
    let pc := place m.2.2
    ¬ (writesAngle params pa pb pc = true ∧ writesVertex params "A" = true) ∧
      ¬ (writesAngle params pb pc pa = true ∧ writesVertex params "B" = true) ∧
      ¬ (writesAngle params pc pa pb = true ∧ writesVertex params "C" = true)

/-- no id of a triangle occurs twice if and only if no size of an angle is written beside the label
of its vertex -/
theorem nodup_ids_iff : Gives (fun s => s.ids.Nodup ↔ Unshared params) (scene params pen) := by
  refine .bind fun a ha => .bind fun b hb => .bind fun c hc => .bind fun m hm => ?_
  have hunshared : Unshared params ↔ _ :=
    ⟨fun h => h a b c m ha hb hc hm, fun h a' b' c' m' ha' hb' hc' hm' => ?_⟩
  rotate_left
  · obtain rfl := Except.ok.inj (ha.symm.trans ha')
    obtain rfl := Except.ok.inj (hb.symm.trans hb')
    obtain rfl := Except.ok.inj (hc.symm.trans hc')
    obtain rfl := Except.ok.inj (hm.symm.trans hm')
    exact h
  obtain ⟨ma, mb, mc⟩ := m
  rw [hunshared]
  dsimp only
  rw [← nodup_texts_iff]
  refine .pure ?_
  have hside := fun name content p q center => pen.carries_sideLabel ("side-" ++ name)
    content p q center
  exact vocabulary.nodup_ids_iff (.append (.append_fixed (.fixed_append
    (.group (.append (.append (pen.carries_segment _ _ _) (pen.carries_segment _ _ _))
      (pen.carries_segment _ _ _)) _)
    (.group (.append (.append (carries_angleMark params pen _ _ _ _)
      (carries_angleMark params pen _ _ _ _)) (carries_angleMark params pen _ _ _ _)) _))
    (.maybe (.group (.append (.append (hside _ _ _ _ _) (hside _ _ _ _ _)) (hside _ _ _ _ _)) _) _))
    (.group (.append (.append (carries_vertexMark params pen _ _ _)
      (carries_vertexMark params pen _ _ _)) (carries_vertexMark params pen _ _ _)) _))
    rfl
    fun s hs => ⟨s, mem_texts _ _ _ _ _ _ s hs, "", String.append_empty.symm⟩

end Triangle

namespace CoordinateGrid

/-- the ids of a coordinate grid, without those of its lines, of the texts on its axes, and of its
points -/
def vocabulary : Vocabulary where
  root := "coordinate-grid"
  keys := [Element.group.id "grid", Element.group.id "axes", Element.line.id "x-axis",
    Element.line.id "y-axis", Element.group.id "points"]
  beginnings := [Element.line.id "grid-x", Element.line.id "grid-y"] ++ [Element.text.id ""] ++
    [Element.point.id "", Element.text.id ""]
  nodup := by decide
  apart := by decide

def gridNames (xs ys : List Float) : List String :=
  (xs.map fun x => "grid-x" ++ tidy 2 x) ++ ys.map fun y => "grid-y" ++ tidy 2 y

def tickNames (f : Frame) (xs ys : List Float) : List String :=
  ((xs.filter (· != f.crossing.x)).map fun x => "tick-x" ++ tidy 2 x) ++
    (ys.filter (· != f.crossing.y)).map fun y => "tick-y" ++ tidy 2 y

/-- the names of the texts on the axes, if axes are drawn -/
def axisNames (params : Params) (f : Frame) (xs ys : List Float) : List String :=
  if params.visible "showAxes" then
    (if (params.label "xAxis").isEmpty then [] else ["x-axis"]) ++
      (if (params.label "yAxis").isEmpty then [] else ["y-axis"]) ++
      if params.visible "showTickLabels" then tickNames f xs ys else []
  else []

def Texted (params : Params) (f : Frame) (e : String × Position) : Prop :=
  ∃ p, e.2.point? = some p ∧ f.excludes p = false ∧ plotText params e.1 p ≠ ""

theorem nodup_hundredths_iff (beginning : String) (xs : List Float) :
    (xs.map fun x => beginning ++ tidy 2 x).Nodup ↔ RoundedApart xs := by
  rw [RoundedApart, List.Nodup, List.Nodup, List.pairwise_map, List.pairwise_map]
  simp only [Ne, String.append_right_inj, tidy_eq_iff]

theorem nodup_two_iff {p q : String} (h : Apart p q) (xs ys : List Float) :
    ((xs.map fun x => p ++ tidy 2 x) ++ ys.map fun y => q ++ tidy 2 y).Nodup ↔
      RoundedApart xs ∧ RoundedApart ys := by
  rw [List.nodup_append', nodup_hundredths_iff, nodup_hundredths_iff, ← and_assoc]
  refine and_iff_left fun s hs hs' => ?_
  obtain ⟨x, -, rfl⟩ := List.mem_map.mp hs
  obtain ⟨y, -, heq⟩ := List.mem_map.mp hs'
  exact ne_of_apart h.symm _ _ heq

theorem nodup_axisNames_iff (f : Frame) (xs ys : List Float) : (axisNames params f xs ys).Nodup ↔
    (params.visible "showAxes" = true → params.visible "showTickLabels" = true →
      RoundedApart (xs.filter (· != f.crossing.x)) ∧
      RoundedApart (ys.filter (· != f.crossing.y))) := by
  have hticks := nodup_two_iff (by decide : Apart "tick-x" "tick-y")
    (xs.filter (· != f.crossing.x)) (ys.filter (· != f.crossing.y))
  have hnames : ∀ b c : Bool, ((if b then [] else ["x-axis"]) ++ if c then [] else ["y-axis"]).Nodup
      ∧ ∀ s ∈ (if b then [] else ["x-axis"]) ++ if c then [] else ["y-axis"],
        Apart "tick-x" s ∧ Apart "tick-y" s := by
    decide
  obtain ⟨hnodup, happart⟩ := hnames (params.label "xAxis").isEmpty (params.label "yAxis").isEmpty
  unfold axisNames
  cases params.visible "showAxes" with
  | false => simp
  | true =>
    cases params.visible "showTickLabels" with
    | false => simpa using hnodup
    | true =>
      simp only [if_true, forall_const]
      rw [List.nodup_append', and_iff_right hnodup, tickNames, hticks]
      refine and_iff_left fun s hs hs' => ?_
      rcases List.mem_append.mp hs' with hs' | hs'
      · obtain ⟨x, -, rfl⟩ := List.mem_map.mp hs'
        exact (happart _ hs).1.1 (String.toList_append ▸ List.prefix_append _ _)
      · obtain ⟨x, -, rfl⟩ := List.mem_map.mp hs'
        exact (happart _ hs).2.1 (String.toList_append ▸ List.prefix_append _ _)

theorem ids_gridLines (f : Frame) (xs ys : List Float) :
    (gridLines pen f xs ys).ids = (gridNames xs ys).map Element.line.id := by
  simp [gridLines, gridNames, Function.comp_def, ← List.map_eq_flatMap]

theorem ids_tickLabels (f : Frame) (xs ys : List Float) :
    (tickLabels pen f xs ys).ids = (tickNames f xs ys).map Element.text.id := by
  simp [tickLabels, tickNames, Function.comp_def, Markup.isEmpty_tidy, ← List.map_eq_flatMap]

theorem carries_grid (f : Frame) (xs ys : List Float) :
    (Drawing.when (params.visible "showGrid") (Pen.group "grid" (gridLines pen f xs ys))).Carries
      [Element.group.id "grid"]
      (if params.visible "showGrid" then (gridNames xs ys).map Element.line.id else []) := by
  rw [← ids_gridLines pen f]
  exact (Carries.group (.free _) "grid").when _

theorem carries_axes (f : Frame) (xs ys : List Float) :
    (Drawing.when (params.visible "showAxes")
      (Pen.group "axes" (axes params pen f ++
        Drawing.when (params.visible "showTickLabels") (tickLabels pen f xs ys)))).Carries
      [Element.group.id "axes", Element.line.id "x-axis", Element.line.id "y-axis"]
      ((axisNames params f xs ys).map Element.text.id) := by
  have haxes : (axes params pen f).Carries [Element.line.id "x-axis", Element.line.id "y-axis"] _ :=
    .append (.append (.append (pen.carries_rule _ _ _ _) (pen.carries_rule _ _ _ _))
      (.free _)) (.free _)
  have hparts := ((haxes.append ((Carries.free (tickLabels pen f xs ys)).when
    (params.visible "showTickLabels"))).group "axes").when (params.visible "showAxes")
  rw [ids_tickLabels, Pen.ids_text, Pen.ids_text] at hparts
  unfold axisNames
  simp only [apply_ite (List.map Element.text.id), List.map_append, List.map_cons, List.map_nil]
  exact hparts

def pointKinds : List (Kind (String × Position)) :=
  [⟨Element.point.id "", Prod.fst⟩, ⟨Element.text.id "", Prod.fst⟩]

variable (f : Frame)

theorem names_plot : Kind.Names pointKinds fun e => (plot params pen f e.1 e.2).1.ids := by
  intro e
  refine Drawing.Carries.subperm ?_
  simp only [pointKinds, List.map_cons, List.map_nil, Kind.text, ← Element.id_eq]
  unfold plot
  split
  · exact ⟨[], List.nil_sublist _, List.Perm.refl _⟩
  · split
    · exact ⟨[], List.nil_sublist _, List.Perm.refl _⟩
    · exact (pen.carries_dot _ _).append (pen.carries_text _ _ _ _ _)

theorem text_mem_plot_iff (e : String × Position) (name : String) :
    Element.text.id name ∈ (plot params pen f e.1 e.2).1.ids ↔ e.1 = name ∧ Texted params f e := by
  have hdot : Element.text.id name ≠ Element.point.id e.1 := Element.id_ne (by decide) _ _
  unfold plot Texted
  split
  · rename_i hnone
    simp [hnone]
  · rename_i p hp
    split
    · rename_i hout
      simp [hp, hout]
    · rename_i hin
      have hin : f.excludes p = false := Bool.not_eq_true _ ▸ hin
      by_cases hempty : plotText params e.1 p = ""
      · simp [hp, hin, hempty, hdot]
      · simpa [hp, hin, hempty, hdot, Element.id_inj] using eq_comm

theorem nodup_points (d : Dict Position) :
    (d.entries.flatMap fun e => (plot params pen f e.1 e.2).1.ids).Nodup :=
  Kind.nodup (by decide : pointKinds.Pairwise _) (names_plot params pen f)
    (by simp [pointKinds]) (Dict.nodup_keys d)

/-- grid and ticks are apart, and no point with a text is named like a text of the axes -/
structure Clear (params : Params) (f : Frame) (xs ys : List Float) : Prop where
  grid : params.visible "showGrid" = true → RoundedApart xs ∧ RoundedApart ys
  ticks : params.visible "showAxes" = true → params.visible "showTickLabels" = true →
    RoundedApart (xs.filter (· != f.crossing.x)) ∧ RoundedApart (ys.filter (· != f.crossing.y))
  points : ∀ e ∈ params.positions.entries, Texted params f e → e.1 ∉ axisNames params f xs ys

/-- the ids of the lines of the grid, of the texts on the axes, and of the points -/
def loose (xs ys : List Float) : List String :=
  (if params.visible "showGrid" then (gridNames xs ys).map Element.line.id else []) ++
    (axisNames params f xs ys).map Element.text.id ++
    params.positions.entries.flatMap fun e => (plot params pen f e.1 e.2).1.ids

variable {f} {xs ys : List Float}

theorem nodup_grid_iff :
    (if params.visible "showGrid" then (gridNames xs ys).map Element.line.id else []).Nodup ↔
      (params.visible "showGrid" = true → RoundedApart xs ∧ RoundedApart ys) := by
  cases params.visible "showGrid" with
  | false => simp
  | true =>
    rw [if_pos rfl, List.nodup_map_iff fun _ _ => Element.id_inj.mp, gridNames,
      nodup_two_iff (by decide)]
    simp

theorem begins_grid (xs ys : List Float) : Begins [Element.line.id "grid-x",
    Element.line.id "grid-y"]
    (if params.visible "showGrid" then (gridNames xs ys).map Element.line.id else []) := by
  simp only [gridNames, List.map_append, List.map_map, Function.comp_def, Element.id_append]
  exact .ite _ (.append (.map _ _ _) (.map _ _ _))

theorem begins_axes (f : Frame) (xs ys : List Float) :
    Begins [Element.text.id ""] ((axisNames params f xs ys).map Element.text.id) := by
  rw [funext (Element.id_eq .text)]
  exact .map _ _ _

theorem begins_points (f : Frame) : Begins [Element.point.id "", Element.text.id ""]
    (params.positions.entries.flatMap fun e => (plot params pen f e.1 e.2).1.ids) :=
  Kind.begins (names_plot params pen f) _

theorem disjoint_points_iff :
    ((axisNames params f xs ys).map Element.text.id).Disjoint
        (params.positions.entries.flatMap fun e => (plot params pen f e.1 e.2).1.ids) ↔
      ∀ e ∈ params.positions.entries, Texted params f e → e.1 ∉ axisNames params f xs ys := by
  constructor
  · intro h e he htext hname
    exact h (List.mem_map_of_mem hname) (List.mem_flatMap.mpr
      ⟨e, he, (text_mem_plot_iff params pen f e e.1).mpr ⟨rfl, htext⟩⟩)
  · intro h s hs hplot
    obtain ⟨name, hname, rfl⟩ := List.mem_map.mp hs
    obtain ⟨e, he, hmem⟩ := List.mem_flatMap.mp hplot
    obtain ⟨rfl, htext⟩ := (text_mem_plot_iff params pen f e name).mp hmem
    exact h e he htext hname

theorem nodup_loose_iff : (loose params pen f xs ys).Nodup ↔ Clear params f xs ys := by
  have htexts := (begins_grid params xs ys).disjoint (begins_axes params f xs ys) (by decide)
  have hpoints := (begins_grid params xs ys).disjoint (begins_points params pen f) (by decide)
  rw [loose, List.nodup_append', List.nodup_append', List.disjoint_append_left, nodup_grid_iff,
    List.nodup_map_iff fun _ _ => Element.id_inj.mp, nodup_axisNames_iff, disjoint_points_iff]
  constructor
  · rintro ⟨⟨hgrid, hticks, -⟩, -, -, hclear⟩
    exact ⟨hgrid, hticks, hclear⟩
  · rintro ⟨hgrid, hticks, hclear⟩
    exact ⟨⟨hgrid, hticks, htexts⟩, nodup_points params pen f params.positions, hpoints, hclear⟩

theorem carries_points (f : Frame) : Drawing.Carries
    ((params.positions.entries.map fun e => plot params pen f e.1 e.2).flatMap Prod.fst) []
    (params.positions.entries.flatMap fun e => (plot params pen f e.1 e.2).1.ids) := by
  rw [List.flatMap_map, ← Drawing.ids_flatMap]
  exact .free _

/-- the frame and the ticks that the parameters ask for -/
structure Ruled (params : Params) (f : Frame) (d : Float) (xs ys : List Float) : Prop where
  xMin : params.number? "xMin" = some f.xMin
  xMax : params.number? "xMax" = some f.xMax
  yMin : params.number? "yMin" = some f.yMin
  yMax : params.number? "yMax" = some f.yMax
  step : params.number? "step" = some d
  xTicks : Template.ticks f.xMin f.xMax d tickLimit = some xs
  yTicks : Template.ticks f.yMin f.yMax d tickLimit = some ys

theorem Ruled.unique {f g : Frame} {d e : Float} {xs ys us vs : List Float}
    (h : Ruled params f d xs ys) (h' : Ruled params g e us vs) : f = g ∧ xs = us ∧ ys = vs := by
  obtain ⟨a, b, c, k⟩ := f
  obtain ⟨hxMin, hxMax, hyMin, hyMax, hstep, hxs, hys⟩ := h
  obtain ⟨hxMin', hxMax', hyMin', hyMax', hstep', hxs', hys'⟩ := h'
  obtain rfl := Option.some.inj (hxMin.symm.trans hxMin')
  obtain rfl := Option.some.inj (hxMax.symm.trans hxMax')
  obtain rfl := Option.some.inj (hyMin.symm.trans hyMin')
  obtain rfl := Option.some.inj (hyMax.symm.trans hyMax')
  obtain rfl := Option.some.inj (hstep.symm.trans hstep')
  exact ⟨rfl, Option.some.inj (hxs.symm.trans hxs'), Option.some.inj (hys.symm.trans hys')⟩

/-- no id of a coordinate grid occurs twice if and only if grid and ticks are apart and no point is
named like a text of the axes -/
theorem nodup_ids_iff : Gives (fun s => s.ids.Nodup ↔
    ∀ f d xs ys, Ruled params f d xs ys → Clear params f xs ys) (scene params pen) := by
  refine .bind fun xMin hxMin => .bind fun xMax hxMax => .bind fun yMin hyMin =>
    .bind fun yMax hyMax => .bind fun step hstep => ?_
  refine .ite (fun _ => .bind nofun) fun _ => .ite (fun _ => .bind nofun) fun _ => ?_
  dsimp only
  split
  · rename_i xs hxs
    split
    · rename_i ys hys
      have hruled : Ruled params ⟨xMin, xMax, yMin, yMax⟩ step xs ys :=
        ⟨Params.number?_of_required hxMin, Params.number?_of_required hxMax,
          Params.number?_of_required hyMin, Params.number?_of_required hyMax,
          Params.number?_of_positive hstep, hxs, hys⟩
      have hclear : (∀ f d xs ys, Ruled params f d xs ys → Clear params f xs ys) ↔
          Clear params ⟨xMin, xMax, yMin, yMax⟩ xs ys := by
        refine ⟨fun h => h _ _ _ _ hruled, fun h f d us vs hruled' => ?_⟩
        obtain ⟨rfl, rfl, rfl⟩ := hruled.unique params hruled'
        exact h
      rw [hclear, ← nodup_loose_iff params pen]
      exact .pure (vocabulary.nodup_ids_iff (.append
        (.append (carries_grid params pen _ _ _) (carries_axes params pen _ _ _))
        (.group (carries_points params pen _) _)) rfl
        (((begins_grid params _ _).append (begins_axes params _ _ _)).append
          (begins_points params pen _)))
    · exact .error _
  · exact .error _

end CoordinateGrid

end Figures
