import Figures.Number.Binary
import Mathlib

/-!
# The order of doubles

* `isNaN_of_isFinite`       a finite double is a number
* `isNaN_of_le`             what is at most something else is a number, and so is the other
* `le_of_not_lt`            of two numbers, the one that is not above the other is at most it
* `not_lt_of_le`            what is at most something else is not above it

A double that is no number is neither below, nor equal to, nor above any other. So a bound that is
tested by its negation lets it pass.
-/

namespace Figures

open Float.Model

/-- nothing can be compared with what is no number, and everything else can -/
theorem compare_eq_none_iff (a b : UnpackedFloat) :
    a.compare b = none ↔ a.isNaN = true ∨ b.isNaN = true := by
  fun_cases UnpackedFloat.compare a b <;> simp_all [UnpackedFloat.isNaN]

theorem compare_magnitude_swap (m n : Nat) (d e : Int) :
    (compare e d).then (compare n m) = ((compare d e).then (compare m n)).swap := by
  rw [Ordering.swap_then, ← Std.OrientedCmp.eq_swap, ← Std.OrientedCmp.eq_swap]

/-- comparing the other way round gives the opposite -/
theorem compare_swap (a b : UnpackedFloat) : b.compare a = (a.compare b).map Ordering.swap := by
  fun_cases UnpackedFloat.compare a b
  case case1 => cases b <;> rfl
  case case3 s t => cases s <;> cases t <;> rfl
  case case13 m d hm n e hn =>
    simp [UnpackedFloat.compare, compare_magnitude_swap m n d e]
  case case16 m d hm n e hn =>
    simp [UnpackedFloat.compare, compare_magnitude_swap m n d e]
  all_goals simp [UnpackedFloat.compare]

theorem le_iff_unpack (x y : Float) :
    x ≤ y ↔ UnpackedFloat.le x.toModel.unpack y.toModel.unpack = true := by
  show Float.le x y = true ↔ _
  rw [Float.le, decide_eq_true_iff]
  exact Iff.rfl

theorem lt_iff_unpack (x y : Float) :
    x < y ↔ UnpackedFloat.lt x.toModel.unpack y.toModel.unpack = true := by
  show Float.lt x y = true ↔ _
  rw [Float.lt, decide_eq_true_iff]
  exact Iff.rfl

theorem isNaN_of_isFinite {x : Float} (h : x.isFinite = true) : x.isNaN = false := by
  change x.toModel.unpack.isFinite = true at h
  show x.toModel.unpack.isNaN = false
  cases hx : x.toModel.unpack with
  | notANumber =>
    rw [hx] at h
    exact absurd h nofun
  | infinity s => rfl
  | zero s => rfl
  | finite s m e hm => rfl

theorem isNaN_of_le {x y : Float} (h : x ≤ y) : x.isNaN = false ∧ y.isNaN = false := by
  rw [le_iff_unpack, UnpackedFloat.le] at h
  have hsome : ¬ (x.isNaN = true ∨ y.isNaN = true) := by
    intro hnan
    rw [(compare_eq_none_iff x.toModel.unpack y.toModel.unpack).mpr hnan] at h
    exact absurd h nofun
  simpa using hsome

theorem le_of_not_lt {x y : Float} (hx : x.isNaN = false) (hy : y.isNaN = false) (h : ¬ y < x) :
    x ≤ y := by
  rw [lt_iff_unpack, UnpackedFloat.lt] at h
  rw [le_iff_unpack, UnpackedFloat.le, compare_swap y.toModel.unpack]
  cases hcompare : y.toModel.unpack.compare x.toModel.unpack with
  | none =>
    have hnan : y.isNaN = true ∨ x.isNaN = true := (compare_eq_none_iff _ _).mp hcompare
    rw [hx, hy] at hnan
    exact absurd hnan (by decide)
  | some o =>
    rw [hcompare] at h
    cases o with
    | lt => exact absurd rfl h
    | eq => rfl
    | gt => rfl

theorem not_lt_of_le {x y : Float} (h : x ≤ y) : ¬ y < x := by
  rw [le_iff_unpack, UnpackedFloat.le] at h
  rw [lt_iff_unpack, UnpackedFloat.lt, compare_swap x.toModel.unpack]
  cases hcompare : x.toModel.unpack.compare y.toModel.unpack with
  | none =>
    rw [hcompare] at h
    exact absurd h nofun
  | some o =>
    rw [hcompare] at h
    cases o with
    | lt => exact nofun
    | eq => exact nofun
    | gt => exact absurd h nofun

end Figures
