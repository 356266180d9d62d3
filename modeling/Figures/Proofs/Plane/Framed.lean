import Figures.Plane.Fit
import Mathlib.Analysis.InnerProductSpace.PiL2
import Mathlib.Geometry.Euclidean.Angle.Unoriented.Affine

/-!
# Fitted models over exact numbers

* `Ends f points lo hi`     the least and the greatest coordinate of points along an axis
* `along`                   where a coordinate is placed along an axis of the canvas
* `along_within`, `along_centred_iff`, `along_tight`   such places are between the margins; their
  ends are centred unless the span is degenerate, and are at the margins if it fills the room
* `Vec.placed scale dx dy`  a point scaled evenly, its second axis flipped, and moved
* `Vec.dist_placed`, `Vec.angle_placed`   lengths are scaled evenly, angles are kept
* `Framing`                 the ends of a model, and the canvas it is fitted onto
* `Framing.place_within`, `centred_iff`, `reach_margins`   the same for places on it, along both
  axes
* `fit_exact`               the points of a model on a canvas

Numbers are rational here, and `fit` takes the smaller and the larger of them. A span of less than
`tiny` is degenerate: it counts as `tiny`.
-/

namespace Figures

instance : Extremes ℚ := ⟨min, max⟩

/-! ### the ends of a model -/

/-- the least and the greatest coordinate of points along an axis -/
structure Ends (f : Vec ℚ → ℚ) (points : List (Vec ℚ)) (lo hi : ℚ) : Prop where
  least : IsLeast (f '' {p | p ∈ points}) lo
  greatest : IsGreatest (f '' {p | p ∈ points}) hi

theorem isLeast_foldl {α β : Type} [LinearOrder β] (f : α → β) (a : α) (rest : List α) :
    IsLeast (f '' {b | b ∈ a :: rest}) (rest.foldl (fun m b => min m (f b)) (f a)) := by
  induction rest using List.reverseRecOn with
  | nil => simp
  | append_singleton rest b ih =>
    have hset : {c | c ∈ a :: (rest ++ [b])} = insert b {c | c ∈ a :: rest} := by
      ext c
      simp only [List.mem_cons, List.mem_append, List.not_mem_nil, or_false, Set.mem_ofPred_eq,
        Set.mem_insert_iff]
      tauto
    rw [List.foldl_append, List.foldl_cons, List.foldl_nil, hset, Set.image_insert_eq, min_comm]
    exact ih.insert (f b)

theorem isGreatest_foldl {α β : Type} [LinearOrder β] (f : α → β) (a : α) (rest : List α) :
    IsGreatest (f '' {b | b ∈ a :: rest}) (rest.foldl (fun m b => max m (f b)) (f a)) :=
  isLeast_foldl (β := βᵒᵈ) f a rest

namespace Ends

variable {f g : Vec ℚ → ℚ} {points : List (Vec ℚ)} {place : Vec ℚ → Vec ℚ} {lo hi : ℚ}

theorem of_cons (f : Vec ℚ → ℚ) (p : Vec ℚ) (rest : List (Vec ℚ)) :
    Ends f (p :: rest) (rest.foldl (fun m q => Extremes.lesser m (f q)) (f p))
      (rest.foldl (fun m q => Extremes.greater m (f q)) (f p)) :=
  ⟨isLeast_foldl f p rest, isGreatest_foldl f p rest⟩

theorem le (he : Ends f points lo hi) {p : Vec ℚ} (hp : p ∈ points) : lo ≤ f p ∧ f p ≤ hi :=
  ⟨he.least.2 (Set.mem_image_of_mem f hp), he.greatest.2 (Set.mem_image_of_mem f hp)⟩

theorem image_map {h : ℚ → ℚ} (hplace : ∀ p, g (place p) = h (f p)) :
    g '' {q | q ∈ points.map place} = h '' (f '' {p | p ∈ points}) := by
  ext y
  simp [hplace]

/-- where an axis keeps its sense, the ends are placed as the points are -/
theorem map (he : Ends f points lo hi) {h : ℚ → ℚ} (hplace : ∀ p, g (place p) = h (f p))
    (hh : Monotone h) :
    Ends g (points.map place) (h lo) (h hi) := by
  constructor
  · rw [image_map hplace]
    exact hh.map_isLeast he.least
  · rw [image_map hplace]
    exact hh.map_isGreatest he.greatest

theorem flip (he : Ends f points lo hi) {h : ℚ → ℚ} (hplace : ∀ p, g (place p) = h (f p))
    (hh : Antitone h) :
    Ends g (points.map place) (h hi) (h lo) := by
  constructor
  · rw [image_map hplace]
    exact hh.map_isGreatest he.greatest
  · rw [image_map hplace]
    exact hh.map_isLeast he.least

end Ends

/-! ### along one axis -/

/-- a span counts as at least `tiny` -/
def spanOf (tiny lo hi : ℚ) : ℚ := Extremes.greater (hi - lo) tiny

/-- where a coordinate is placed along an axis of the canvas: a scaled span from `lo` on is
centred -/
def along (size span scale lo x : ℚ) : ℚ := (size - span * scale) / 2 + (x - lo) * scale

section
variable {tiny size margin scale lo hi : ℚ}

theorem spanOf_pos (htiny : 0 < tiny) : 0 < spanOf tiny lo hi := lt_max_of_lt_right htiny

theorem along_mono (hscale : 0 < scale) (span : ℚ) : Monotone (along size span scale lo) := by
  intro x y hxy
  exact add_le_add_right (mul_le_mul_of_nonneg_right (sub_le_sub_right hxy lo) hscale.le) _

/-- what lies between the ends of a model is placed between the margins -/
theorem along_within (hscale : 0 < scale)
    (hroom : spanOf tiny lo hi * scale ≤ size - 2 * margin) {x : ℚ}
    (hx : lo ≤ x ∧ x ≤ hi) : margin ≤ along size (spanOf tiny lo hi) scale lo x ∧
      along size (spanOf tiny lo hi) scale lo x ≤ size - margin := by
  have hspan : x - lo ≤ spanOf tiny lo hi := (sub_le_sub_right hx.2 lo).trans (le_max_left _ _)
  have hnonneg : 0 ≤ (x - lo) * scale := mul_nonneg (sub_nonneg.mpr hx.1) hscale.le
  have hle : (x - lo) * scale ≤ spanOf tiny lo hi * scale :=
    mul_le_mul_of_nonneg_right hspan hscale.le
  rw [along]
  constructor <;> linarith

/-- the ends are centred unless the span is degenerate -/
theorem along_centred_iff (hscale : 0 < scale) :
    along size (spanOf tiny lo hi) scale lo lo + along size (spanOf tiny lo hi) scale lo hi = size
      ↔ tiny ≤ hi - lo := by
  have hsum :
      along size (spanOf tiny lo hi) scale lo lo + along size (spanOf tiny lo hi) scale lo hi
        = size + (hi - lo - spanOf tiny lo hi) * scale := by
    rw [along, along]
    ring
  rw [hsum, add_eq_left, mul_eq_zero_iff_right hscale.ne', sub_eq_zero, eq_comm]
  exact max_eq_left_iff

/-- where a span fills the room, its ends are at the margins -/
theorem along_tight (hroom : spanOf tiny lo hi * scale = size - 2 * margin)
    (hspan : tiny ≤ hi - lo) :
    along size (spanOf tiny lo hi) scale lo lo = margin ∧
      along size (spanOf tiny lo hi) scale lo hi = size - margin := by
  have hwhole : spanOf tiny lo hi = hi - lo := max_eq_left hspan
  rw [hwhole] at hroom
  rw [along, along, hwhole, hroom]
  constructor <;> ring

end

/-! ### even scaling -/

namespace Vec

/-- a point scaled evenly, its second axis flipped, and moved -/
def placed (scale dx dy : ℚ) (p : Vec ℚ) : Vec ℚ := ⟨dx + scale * p.x, dy - scale * p.y⟩

noncomputable def real (p : Vec ℚ) : EuclideanSpace ℝ (Fin 2) := !₂[(p.x : ℝ), (p.y : ℝ)]

theorem inner_placed (scale dx dy : ℚ) (p q r : Vec ℚ) :
    inner ℝ ((p.placed scale dx dy).real - (q.placed scale dx dy).real)
      ((r.placed scale dx dy).real - (q.placed scale dx dy).real) =
      (scale : ℝ) ^ 2 * inner ℝ (p.real - q.real) (r.real - q.real) := by
  simp only [PiLp.inner_apply, Fin.sum_univ_two, real, placed, PiLp.sub_apply, Matrix.cons_val_zero,
    Matrix.cons_val_one, Matrix.cons_val_fin_one, RCLike.inner_apply, conj_trivial]
  push_cast
  ring

variable {scale : ℚ} (dx dy : ℚ)

theorem dist_placed (hscale : 0 < scale) (p q : Vec ℚ) :
    dist (p.placed scale dx dy).real (q.placed scale dx dy).real = scale * dist p.real q.real := by
  have hpos : (0 : ℝ) < scale := by exact_mod_cast hscale
  have hinner := inner_placed scale dx dy p q p
  rw [real_inner_self_eq_norm_sq, real_inner_self_eq_norm_sq, ← mul_pow] at hinner
  rw [dist_eq_norm, dist_eq_norm]
  exact (sq_eq_sq₀ (norm_nonneg _) (mul_nonneg hpos.le (norm_nonneg _))).mp hinner

theorem angle_placed (hscale : 0 < scale) (p q r : Vec ℚ) :
    EuclideanGeometry.angle (p.placed scale dx dy).real (q.placed scale dx dy).real
      (r.placed scale dx dy).real =
      EuclideanGeometry.angle p.real q.real r.real := by
  have hne : (scale : ℝ) ^ 2 ≠ 0 := by
    have hpos : (0 : ℝ) < scale := by exact_mod_cast hscale
    positivity
  have hlengths : ‖(p.placed scale dx dy).real - (q.placed scale dx dy).real‖ *
      ‖(r.placed scale dx dy).real - (q.placed scale dx dy).real‖ =
        (scale : ℝ) ^ 2 * (‖p.real - q.real‖ * ‖r.real - q.real‖) := by
    rw [← dist_eq_norm, ← dist_eq_norm, ← dist_eq_norm, ← dist_eq_norm, dist_placed dx dy hscale,
      dist_placed dx dy hscale]
    ring
  rw [EuclideanGeometry.angle, EuclideanGeometry.angle, InnerProductGeometry.angle,
    InnerProductGeometry.angle]
  simp only [vsub_eq_sub]
  rw [inner_placed, hlengths, mul_div_mul_left _ _ hne]

end Vec

/-! ### both axes -/

/-- the ends of a model, and the canvas it is fitted onto -/
structure Framing where
  tiny : ℚ
  width : ℚ
  height : ℚ
  margin : ℚ
  left : ℚ
  right : ℚ
  low : ℚ
  high : ℚ

namespace Framing

structure Roomy (F : Framing) : Prop where
  tiny : 0 < F.tiny
  width : 2 * F.margin < F.width
  height : 2 * F.margin < F.height

structure Bounds (F : Framing) (points : List (Vec ℚ)) : Prop where
  x : Ends Vec.x points F.left F.right
  y : Ends Vec.y points F.low F.high

variable (F : Framing)

def spanX : ℚ := spanOf F.tiny F.left F.right

def spanY : ℚ := spanOf F.tiny F.low F.high

/-- how much the model is scaled: its spans fit into the room for them, as tightly as can be -/
def scale : ℚ :=
  Extremes.lesser ((F.width - 2 * F.margin) / F.spanX) ((F.height - 2 * F.margin) / F.spanY)

/-- the place along the width of the canvas -/
def across (x : ℚ) : ℚ := along F.width F.spanX F.scale F.left x

def down (y : ℚ) : ℚ := F.height - along F.height F.spanY F.scale F.low y

/-- the first axis keeps its sense, the second is flipped -/
def place (q : Vec ℚ) : Vec ℚ := ⟨F.across q.x, F.down q.y⟩

/-- one scale, and one way to move -/
theorem place_eq_placed (q : Vec ℚ) : F.place q = q.placed F.scale (F.across 0) (F.down 0) := by
  rw [place, Vec.placed, Vec.mk.injEq]
  simp only [across, down, along]
  constructor <;> ring

variable {F} {p : Vec ℚ} {rest points : List (Vec ℚ)}

theorem fitting_eq (hends : F.Bounds (p :: rest)) :
    fitting F.tiny F.width F.height F.margin p rest = F.place := by
  have hfoldX := Ends.of_cons Vec.x p rest
  have hfoldY := Ends.of_cons Vec.y p rest
  funext q
  rw [place, across, down, along, along, ← sub_sub, scale, spanX, spanY,
    hends.x.least.unique hfoldX.least, hends.x.greatest.unique hfoldX.greatest,
    hends.y.least.unique hfoldY.least, hends.y.greatest.unique hfoldY.greatest]
  rfl

section
variable (h : F.Roomy)
include h

theorem scale_pos : 0 < F.scale :=
  lt_min (div_pos (sub_pos.mpr h.width) (spanOf_pos h.tiny))
    (div_pos (sub_pos.mpr h.height) (spanOf_pos h.tiny))

theorem spans_fit : F.spanX * F.scale ≤ F.width - 2 * F.margin ∧
    F.spanY * F.scale ≤ F.height - 2 * F.margin :=
  ⟨(le_div_iff₀' (spanOf_pos h.tiny)).mp (min_le_left _ _),
    (le_div_iff₀' (spanOf_pos h.tiny)).mp (min_le_right _ _)⟩

theorem spans_fill : F.spanX * F.scale = F.width - 2 * F.margin ∨
    F.spanY * F.scale = F.height - 2 * F.margin := by
  have hx : F.spanX ≠ 0 := (spanOf_pos h.tiny).ne'
  have hy : F.spanY ≠ 0 := (spanOf_pos h.tiny).ne'
  rcases min_choice ((F.width - 2 * F.margin) / F.spanX) ((F.height - 2 * F.margin) / F.spanY)
    with hmin | hmin
  · exact .inl ((congrArg _ hmin).trans (mul_div_cancel₀ _ hx))
  · exact .inr ((congrArg _ hmin).trans (mul_div_cancel₀ _ hy))

theorem across_mono : Monotone F.across := along_mono (scale_pos h) _

theorem down_anti : Antitone F.down := fun _ _ hle => sub_le_sub_left
    (along_mono (scale_pos h) _ hle) _

theorem ends_place (hends : F.Bounds points) :
    Ends Vec.x (points.map F.place) (F.across F.left) (F.across F.right) ∧
      Ends Vec.y (points.map F.place) (F.down F.high) (F.down F.low) :=
  ⟨hends.x.map (fun _ => rfl) (across_mono h), hends.y.flip (fun _ => rfl) (down_anti h)⟩

theorem place_within (hends : F.Bounds points) {q : Vec ℚ} (hq : q ∈ points) :
    (F.margin ≤ (F.place q).x ∧ (F.place q).x ≤ F.width - F.margin) ∧
      F.margin ≤ (F.place q).y ∧ (F.place q).y ≤ F.height - F.margin := by
  obtain ⟨hroomX, hroomY⟩ := spans_fit h
  obtain ⟨hsouth, hnorth⟩ := along_within (scale_pos h) hroomY (hends.y.le hq)
  refine ⟨along_within (scale_pos h) hroomX (hends.x.le hq), ?_⟩
  rw [place, down, spanY]
  constructor <;> linarith

/-- the places are centred unless a span is degenerate -/
theorem centred_iff : F.across F.left + F.across F.right = F.width ∧
    F.down F.high + F.down F.low = F.height ↔
    F.tiny ≤ F.right - F.left ∧ F.tiny ≤ F.high - F.low := by
  refine and_congr (along_centred_iff (scale_pos h)) ?_
  have hcentred : along F.height F.spanY F.scale F.low F.low + along F.height F.spanY F.scale F.low
      F.high = F.height ↔
      F.tiny ≤ F.high - F.low := along_centred_iff (scale_pos h)
  rw [← hcentred, down, down]
  constructor <;> intro heq <;> linarith

/-- if none is, they reach from margin to margin one way -/
theorem reach_margins (hspanX : F.tiny ≤ F.right - F.left) (hspanY : F.tiny ≤ F.high - F.low) :
    F.across F.left = F.margin ∧ F.across F.right = F.width - F.margin ∨
      F.down F.high = F.margin ∧ F.down F.low = F.height - F.margin := by
  refine (spans_fill h).imp (fun hfill => along_tight hfill hspanX) fun hfill => ?_
  obtain ⟨hsouth, hnorth⟩ := along_tight hfill hspanY
  rw [down, down, spanY, hsouth, hnorth]
  exact ⟨sub_sub_cancel _ _, rfl⟩

end

end Framing

section
variable {tiny width height margin : ℚ}

/-- **A fitted model is the model, scaled evenly, upside down, and centred between the margins.**
Each point is placed, in the same order, by one map, which scales lengths by one positive factor and
keeps angles. All places are between the margins. Their bounding box is centred on the canvas unless
a span of the model is degenerate, and if none is, two opposite sides of the box are at the
margins. -/
theorem fit_exact (htiny : 0 < tiny) (hwidth : 2 * margin < width) (hheight : 2 * margin < height)
    {points : List (Vec ℚ)} (hne : points ≠ []) :
    (∃ scale dx dy : ℚ, 0 < scale ∧
      fit tiny width height margin points = points.map (Vec.placed scale dx dy) ∧
      (∀ p q : Vec ℚ, dist (p.placed scale dx dy).real (q.placed scale dx dy).real =
        scale * dist p.real q.real) ∧
      ∀ p q r : Vec ℚ,
        EuclideanGeometry.angle (p.placed scale dx dy).real (q.placed scale dx dy).real
          (r.placed scale dx dy).real = EuclideanGeometry.angle p.real q.real r.real) ∧
    (∀ q ∈ fit tiny width height margin points,
      (margin ≤ q.x ∧ q.x ≤ width - margin) ∧ margin ≤ q.y ∧ q.y ≤ height - margin) ∧
    ∃ left right low high west east north south : ℚ,
      (Ends Vec.x points left right ∧ Ends Vec.y points low high) ∧
      (Ends Vec.x (fit tiny width height margin points) west east ∧
        Ends Vec.y (fit tiny width height margin points) north south) ∧
      (west + east = width ∧ north + south = height ↔ tiny ≤ right - left ∧ tiny ≤ high - low) ∧
      (tiny ≤ right - left → tiny ≤ high - low →
        west = margin ∧ east = width - margin ∨ north = margin ∧ south = height - margin) := by
  obtain ⟨p, rest, rfl⟩ := List.exists_cons_of_ne_nil hne
  obtain ⟨left, right, hx⟩ : ∃ left right, Ends Vec.x (p :: rest) left right :=
    ⟨_, _, .of_cons Vec.x p rest⟩
  obtain ⟨low, high, hy⟩ : ∃ low high, Ends Vec.y (p :: rest) low high :=
    ⟨_, _, .of_cons Vec.y p rest⟩
  let F : Framing := ⟨tiny, width, height, margin, left, right, low, high⟩
  have hroomy : F.Roomy := ⟨htiny, hwidth, hheight⟩
  have hends : F.Bounds (p :: rest) := ⟨hx, hy⟩
  have hfit : fit tiny width height margin (p :: rest) = (p :: rest).map F.place :=
    congrArg (List.map · (p :: rest)) (Framing.fitting_eq hends)
  have hscale : 0 < F.scale := Framing.scale_pos hroomy
  rw [hfit]
  refine ⟨⟨F.scale, F.across 0, F.down 0, hscale, List.map_congr_left fun q _ =>
      F.place_eq_placed q, Vec.dist_placed _ _ hscale, Vec.angle_placed _ _ hscale⟩, fun q hq => ?_,
    left, right, low, high, _, _, _, _, ⟨hx, hy⟩, Framing.ends_place hroomy hends,
    Framing.centred_iff hroomy, Framing.reach_margins hroomy⟩
  obtain ⟨r, hr, rfl⟩ := List.mem_map.mp hq
  exact Framing.place_within hroomy hends hr

/-- a right triangle with the sides 3, 4 and 5: its height fills the room -/
def rightTriangle : List (Vec ℚ) := [⟨0, 0⟩, ⟨4, 0⟩, ⟨0, 3⟩]

theorem fit_exact_rightTriangle : (0 : ℚ) < 1 / 2 ^ 52 ∧ (2 * 70 : ℚ) < 500 ∧ (2 * 70 : ℚ) < 340 ∧
    rightTriangle ≠ [] ∧ ∃ west east north south : ℚ,
      Ends Vec.x (fit (1 / 2 ^ 52) 500 340 70 rightTriangle) west east ∧
      Ends Vec.y (fit (1 / 2 ^ 52) 500 340 70 rightTriangle) north south ∧
      (west + east = 500 ∧ north + south = 340) ∧
      (west = 70 ∧ east = 430 ∨ north = 70 ∧ south = 270) := by
  have htiny : (0 : ℚ) < 1 / 2 ^ 52 := by norm_num
  have hne : rightTriangle ≠ [] := List.cons_ne_nil _ _
  obtain ⟨-, -, left, right, low, high, west, east, north, south, ⟨hx, hy⟩, ⟨hx', hy'⟩,
    hcentred, htight⟩ :=
    @fit_exact (1 / 2 ^ 52) 500 340 70 htiny (by norm_num) (by norm_num) rightTriangle hne
  have hends := Ends.of_cons Vec.x ⟨0, 0⟩ [⟨4, 0⟩, ⟨0, 3⟩]
  have hends' := Ends.of_cons Vec.y ⟨0, 0⟩ [⟨4, 0⟩, ⟨0, 3⟩]
  have hspanX : right - left = 4 := by
    rw [hx.least.unique hends.least, hx.greatest.unique hends.greatest]
    norm_num [Extremes.lesser, Extremes.greater]
  have hspanY : high - low = 3 := by
    rw [hy.least.unique hends'.least, hy.greatest.unique hends'.greatest]
    norm_num [Extremes.lesser, Extremes.greater]
  rw [hspanX, hspanY] at hcentred htight
  refine ⟨htiny, by norm_num, by norm_num, hne, west, east, north, south, hx', hy',
    hcentred.mpr ⟨by norm_num, by norm_num⟩, ?_⟩
  have hmargins := htight (by norm_num) (by norm_num)
  norm_num at hmargins
  exact hmargins

end

end Figures
