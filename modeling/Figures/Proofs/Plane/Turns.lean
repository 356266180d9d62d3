import Figures.Plane.Opening
import Mathlib.Algebra.Order.Floor.Ring
import Mathlib.Data.Rat.Floor
import Mathlib.Tactic.Linarith
import Mathlib.Tactic.NormNum
import Mathlib.Tactic.Ring

/-!
# Turns over exact numbers

* `Truncates rem`           what whole multiples taken off towards zero leave
* `leftover`                such a remainder, where numbers have whole parts
* `abs_wrap_le`, `exists_wrap_eq`   an angle is brought into half a turn either way by whole turns
* `wrap_wrap`, `wrap_neg`   nothing is left to do for such an angle, and the sign is kept
* `Distant half a b d`        `d` is the least distance between two directions, all turns counted
* `Opening.distant_bisector`, `delta_swap`   the direction half way, and the way back
* `Opening.between_short`   the turn between two directions is the short one, from either side

Half a turn is any positive number `half`, and directions are any numbers: two of them are the same
if they differ by whole turns.
-/

namespace Figures

variable {K : Type} [Field K] [LinearOrder K]

/-! ### remainders -/

/-- whole multiples of `m` are taken off `a` towards zero: what is left is smaller than `m` and on
the side of `a` -/
structure Truncates (rem : K → K → K) : Prop where
  whole : ∀ a m, 0 < m → ∃ k : ℤ, a = k * m + rem a m
  small : ∀ a m, 0 < m → |rem a m| < m
  nonneg : ∀ a m, 0 < m → 0 ≤ a → 0 ≤ rem a m
  nonpos : ∀ a m, 0 < m → a ≤ 0 → rem a m ≤ 0

/-- the whole part of a number, towards zero -/
def wholePart [FloorRing K] (q : K) : ℤ := if 0 ≤ q then ⌊q⌋ else ⌈q⌉

/-- what is left of `a` behind the whole part of `a / m` times `m` -/
def leftover [FloorRing K] (a m : K) : K := a - wholePart (a / m) * m

section
variable [IsStrictOrderedRing K]

theorem truncates_leftover [FloorRing K] : Truncates (leftover : K → K → K) := by
  have hparts : ∀ a m : K, 0 < m →
      (0 ≤ a → 0 ≤ leftover a m ∧ leftover a m < m) ∧
      (a ≤ 0 → -m < leftover a m ∧ leftover a m ≤ 0) := by
    intro a m hm
    have hscaled : a = a / m * m := (div_mul_cancel₀ a hm.ne').symm
    have hleft : leftover a m = (a / m - wholePart (a / m)) * m := by
      rw [leftover, sub_mul, ← hscaled]
    have hbelow : 0 ≤ a / m → 0 ≤ leftover a m ∧ leftover a m < m := by
      intro hq
      have hlow := Int.floor_le (a / m)
      have hhigh := Int.lt_floor_add_one (a / m)
      rw [hleft, wholePart, if_pos hq]
      exact ⟨mul_nonneg (sub_nonneg.mpr hlow) hm.le, mul_lt_of_lt_one_left hm (by linarith)⟩
    constructor
    · exact fun ha => hbelow (div_nonneg ha hm.le)
    · intro ha
      rcases (div_nonpos_of_nonpos_of_nonneg ha hm.le).eq_or_lt with hzero | hneg
      · have hnone : leftover a m = 0 := by
          rw [hleft, hzero, wholePart, if_pos le_rfl, Int.floor_zero, Int.cast_zero,
            sub_zero, zero_mul]
        rw [hnone]
        exact ⟨neg_lt_zero.mpr hm, le_rfl⟩
      · have hlow := Int.ceil_lt_add_one (a / m)
        have hhigh := Int.le_ceil (a / m)
        rw [hleft, wholePart, if_neg hneg.not_ge]
        refine ⟨?_, mul_nonpos_of_nonpos_of_nonneg (sub_nonpos.mpr hhigh) hm.le⟩
        rw [neg_eq_neg_one_mul]
        exact mul_lt_mul_of_pos_right (by linarith) hm
  refine ⟨fun a m hm => ⟨wholePart (a / m), ?_⟩, fun a m hm => ?_, fun a m hm ha =>
    ((hparts a m hm).1 ha).1, fun a m hm ha => ((hparts a m hm).2 ha).2⟩
  · rw [leftover]
    ring
  · rcases le_total 0 a with ha | ha
    · obtain ⟨hlow, hhigh⟩ := (hparts a m hm).1 ha
      rwa [abs_of_nonneg hlow]
    · obtain ⟨hlow, hhigh⟩ := (hparts a m hm).2 ha
      rw [abs_of_nonpos hhigh]
      linarith

variable {rem : K → K → K} {half : K}

namespace Truncates

theorem eq_of {a m r : K} (hrem : Truncates rem) (hm : 0 < m) {k : ℤ} (ha : a = k * m + r)
    (hsmall : |r| < m) (hnonneg : 0 ≤ a → 0 ≤ r) (hnonpos : a ≤ 0 → r ≤ 0) : rem a m = r := by
  obtain ⟨j, hj⟩ := hrem.whole a m hm
  have hdiff : rem a m - r = ((k - j : ℤ) : K) * m := by
    rw [Int.cast_sub, sub_mul]
    linarith
  -- both are on the side of `a`, so they are less than `m` apart
  have hnear : |rem a m - r| < m := by
    obtain ⟨hlow, hhigh⟩ := abs_lt.mp (hrem.small a m hm)
    obtain ⟨hlow', hhigh'⟩ := abs_lt.mp hsmall
    rw [abs_lt]
    rcases le_total 0 a with h | h
    · have hpos := hrem.nonneg a m hm h
      have hpos' := hnonneg h
      exact ⟨by linarith, by linarith⟩
    · have hneg := hrem.nonpos a m hm h
      have hneg' := hnonpos h
      exact ⟨by linarith, by linarith⟩
  rw [hdiff, abs_mul, abs_of_pos hm] at hnear
  have hcast : |((k - j : ℤ) : K)| < 1 := lt_of_mul_lt_mul_right (by rwa [one_mul]) hm.le
  have hzero : k - j = 0 := by
    rw [← Int.cast_abs] at hcast
    exact Int.abs_lt_one_iff.mp (by exact_mod_cast hcast)
  rw [hzero, Int.cast_zero, zero_mul] at hdiff
  exact sub_eq_zero.mp hdiff

theorem of_lt {a m : K} (hrem : Truncates rem) (h : |a| < m) : rem a m = a :=
  hrem.eq_of ((abs_nonneg a).trans_lt h) (k :=
    0) (by rw [Int.cast_zero, zero_mul, zero_add]) h id id

theorem neg {m : K} (hrem : Truncates rem) (hm : 0 < m) (a : K) : rem (-a) m = -rem a m := by
  obtain ⟨k, hk⟩ := hrem.whole a m hm
  refine hrem.eq_of hm (k := -k) ?_ ?_ (fun h => ?_) fun h => ?_
  · rw [Int.cast_neg]
    linarith
  · rw [abs_neg]
    exact hrem.small a m hm
  · exact neg_nonneg.mpr (hrem.nonpos a m hm (neg_nonneg.mp h))
  · exact neg_nonpos.mpr (hrem.nonneg a m hm (neg_nonpos.mp h))

end Truncates

/-! ### angles -/

section
variable (hrem : Truncates rem) (hhalf : 0 < half)
include hrem hhalf

theorem abs_wrap_le (a : K) : |wrap rem half a| ≤ half := by
  obtain ⟨hlow, hhigh⟩ := abs_lt.mp (hrem.small a (half + half) (add_pos hhalf hhalf))
  rw [abs_le]
  unfold wrap
  dsimp only
  split
  · exact ⟨by linarith, by linarith⟩
  · split
    · exact ⟨by linarith, by linarith⟩
    · exact ⟨by linarith, by linarith⟩

/-- an angle is changed by whole turns -/
theorem exists_wrap_eq (a : K) : ∃ k : ℤ, wrap rem half a = a + k * (2 * half) := by
  obtain ⟨k, hk⟩ := hrem.whole a (half + half) (add_pos hhalf hhalf)
  unfold wrap
  dsimp only
  split
  · refine ⟨-k - 1, ?_⟩
    push_cast
    linarith
  · split
    · refine ⟨-k + 1, ?_⟩
      push_cast
      linarith
    · refine ⟨-k, ?_⟩
      push_cast
      linarith

theorem wrap_of_le {a : K} (h : |a| ≤ half) : wrap rem half a = a := by
  obtain ⟨hlow, hhigh⟩ := abs_le.mp h
  unfold wrap
  rw [hrem.of_lt (h.trans_lt (lt_add_of_pos_left half hhalf))]
  dsimp only
  rw [if_neg hhigh.not_gt, if_neg hlow.not_gt]

theorem wrap_wrap (a : K) : wrap rem half (wrap rem half a) = wrap rem half a :=
  wrap_of_le hrem hhalf (abs_wrap_le hrem hhalf a)

theorem wrap_neg (a : K) : wrap rem half (-a) = -wrap rem half a := by
  unfold wrap
  rw [hrem.neg (add_pos hhalf hhalf)]
  dsimp only
  split_ifs <;> linarith

end

/-! ### directions -/

/-- `d` is the distance of two directions: the size of the least turn from one to the other -/
structure Distant (half a b d : K) : Prop where
  turn : ∃ k : ℤ, |b - a + k * (2 * half)| = d
  least : ∀ k : ℤ, d ≤ |b - a + k * (2 * half)|

/-- whole turns do not make an angle of at most half a turn smaller -/
theorem abs_le_abs_add_turns (hhalf : 0 < half) {x : K} (h : |x| ≤ half) (k : ℤ) :
    |x| ≤ |x + k * (2 * half)| := by
  rcases eq_or_ne k 0 with rfl | hk
  · rw [Int.cast_zero, zero_mul, add_zero]
  · have hone : (1 : K) ≤ |(k : K)| := by
      rw [← Int.cast_abs]
      exact_mod_cast Int.one_le_abs hk
    have hturns : 2 * half ≤ |(k : K) * (2 * half)| := by
      rw [abs_mul, abs_of_pos (by linarith : 0 < 2 * half)]
      exact le_mul_of_one_le_left (by linarith) hone
    have htriangle := abs_sub_abs_le_abs_add ((k : K) * (2 * half)) x
    rw [add_comm] at htriangle
    linarith

theorem Distant.of_turn (hhalf : 0 < half) {a b x : K} {k : ℤ} (h : |x| ≤ half)
    (hx : x = b - a + k * (2 * half)) :
    Distant half a b |x| := by
  refine ⟨⟨k, by rw [hx]⟩, fun j => ?_⟩
  have hturns := abs_le_abs_add_turns hhalf h (j - k)
  have hsame : x + ((j - k : ℤ) : K) * (2 * half) = b - a + j * (2 * half) := by
    rw [hx, Int.cast_sub]
    ring
  rwa [hsame] at hturns

namespace Opening

section
variable (hrem : Truncates rem) (hhalf : 0 < half) (a b : K)
include hrem hhalf

theorem abs_delta_le : |(between rem half a b).delta| ≤ half := abs_wrap_le hrem hhalf (b - a)

theorem exists_delta_eq : ∃ k : ℤ, (between rem half a b).delta = b - a + k * (2 * half) :=
  exists_wrap_eq hrem hhalf (b - a)

theorem exists_last_eq : ∃ k : ℤ, (between rem half a b).last = b + k * (2 * half) := by
  obtain ⟨k, hk⟩ := exists_delta_eq hrem hhalf a b
  refine ⟨k, ?_⟩
  rw [last, hk]
  show a + _ = _
  ring

theorem distant_delta : Distant half a b |(between rem half a b).delta| := by
  obtain ⟨k, hk⟩ := exists_delta_eq hrem hhalf a b
  exact .of_turn hhalf (abs_delta_le hrem hhalf a b) hk

/-- half a turn from either direction is the direction half way -/
theorem distant_bisector : Distant half a (between rem half a b).bisector
    (|(between rem half a b).delta| / 2) ∧
    Distant half b (between rem half a b).bisector (|(between rem half a b).delta| / 2) := by
  obtain ⟨k, hk⟩ := exists_delta_eq hrem hhalf a b
  set o := between rem half a b with ho
  have hfirst : o.first = a := rfl
  have hhalved : |o.delta / 2| = |o.delta| / 2 := by rw [abs_div, abs_two]
  have hsmall : |o.delta / 2| ≤ half := by
    have hle : |o.delta| ≤ half := abs_delta_le hrem hhalf a b
    rw [hhalved]
    linarith [abs_nonneg o.delta]
  rw [← hhalved]
  constructor
  · refine .of_turn hhalf (k := 0) hsmall ?_
    rw [bisector, hfirst, Int.cast_zero, zero_mul, add_zero, add_sub_cancel_left]
  · rw [← abs_neg]
    refine .of_turn hhalf (k := -k) (by rwa [abs_neg]) ?_
    rw [bisector, hfirst, hk]
    push_cast
    ring

/-- the way back is the opposite turn -/
theorem delta_swap : (between rem half b a).delta = -(between rem half a b).delta := by
  rw [between, between, ← neg_sub b a, wrap_neg hrem hhalf]

theorem sweep_swap (hne : (between rem half a b).delta ≠ 0) :
    (between rem half b a).sweep = !(between rem half a b).sweep := by
  rw [sweep, sweep, delta_swap hrem hhalf]
  rcases hne.lt_or_gt with hneg | hpos
  · rw [decide_eq_true (neg_pos.mpr hneg), decide_eq_false hneg.not_gt]
    rfl
  · rw [decide_eq_true hpos, decide_eq_false (neg_neg_iff_pos.mpr hpos).not_gt]
    rfl

end

/-- **The turn between two directions is the short one.** An angle is brought into half a turn
either way by whole turns; such an angle stays as it is, and an angle and its opposite stay
opposite. So a turn from `a` to `b` starts at `a` and ends at `b`, whole turns apart. It is no
larger than half a turn and as large as the distance of the two directions, and the direction half
way has half of that distance from each of the two. The way back is the same turn in the other
sense. -/
theorem between_short (hrem : Truncates rem) (hhalf : 0 < half) :
    (∀ a, (-half ≤ wrap rem half a ∧ wrap rem half a ≤ half) ∧
      (∃ k : ℤ, wrap rem half a = a + k * (2 * half)) ∧
      wrap rem half (wrap rem half a) = wrap rem half a ∧ wrap rem half (-a) = -wrap rem half a) ∧
    ∀ a b, (between rem half a b).first = a ∧
      (∃ k : ℤ, (between rem half a b).last = b + k * (2 * half)) ∧
      |(between rem half a b).delta| ≤ half ∧ Distant half a b |(between rem half a b).delta| ∧
      Distant half a (between rem half a b).bisector (|(between rem half a b).delta| / 2) ∧
      Distant half b (between rem half a b).bisector (|(between rem half a b).delta| / 2) ∧
      (between rem half b a).delta = -(between rem half a b).delta ∧
      ((between rem half a b).delta ≠ 0 →
        (between rem half b a).sweep = !(between rem half a b).sweep) := by
  refine ⟨fun a => ⟨abs_le.mp (abs_wrap_le hrem hhalf a), exists_wrap_eq hrem hhalf a,
    wrap_wrap hrem hhalf a, wrap_neg hrem hhalf a⟩, fun a b => ?_⟩
  obtain ⟨hfrom, hto⟩ := distant_bisector hrem hhalf a b
  exact ⟨rfl, exists_last_eq hrem hhalf a b, abs_delta_le hrem hhalf a b,
    distant_delta hrem hhalf a b, hfrom, hto, delta_swap hrem hhalf a b, sweep_swap hrem hhalf a b⟩

/-- from 170 to -170 degrees it is twenty degrees, over the cut at half a turn -/
theorem between_short_cut : Truncates (leftover (K := ℚ)) ∧ (0 : ℚ) < 180 ∧
    (between leftover 180 (170 : ℚ) (-170)).delta = 20 ∧ Distant 180 (170 : ℚ) (-170) 20 ∧
    Distant 180 (-170 : ℚ) 180 10 ∧ (between leftover 180 (-170 : ℚ) 170).sweep = false := by
  have hrem : Truncates (leftover (K := ℚ)) := truncates_leftover
  have hdelta : (between leftover 180 (170 : ℚ) (-170)).delta = 20 := by
    norm_num [between, wrap, leftover, wholePart, Int.ceil_eq_iff]
  obtain ⟨-, -, -, hapart, -, hhalfway, -, hsweep⟩ :=
    (between_short hrem (by decide : (0 : ℚ) < 180)).2 170 (-170)
  have hbisector : (between leftover 180 (170 : ℚ) (-170)).bisector = 180 := by
    rw [bisector, hdelta]
    norm_num [between]
  rw [hbisector, hdelta] at hhalfway
  rw [hdelta] at hapart hsweep
  norm_num at hapart hhalfway
  refine ⟨hrem, by decide, hdelta, hapart, hhalfway, ?_⟩
  rw [hsweep (by decide), sweep, hdelta]
  decide

end Opening

end

end Figures
