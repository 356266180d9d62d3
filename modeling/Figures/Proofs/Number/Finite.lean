import Figures.Json.Basic
import Figures.Proofs.Number.Decimal

/-!
# Finite doubles

* `isFinite_unpack_iff`        a double is finite unless its exponent is all ones
* `isFinite_of_ofFloat?`       a double with an exact value is finite
* `isFinite_neg_iff`           a double and its negative are both finite, or both not
* `Json.isFinite_ofInteger`    the double of a whole number of 64 bits is finite
-/

namespace Figures

open Float.Model UnpackedFloat

theorem isFinite_unpack_iff (w : BitVec 64) :
    (UnpackedFloat.unpack .binary64 w).isFinite = true ↔ @unpackExponent .binary64 w ≠ -1#_ := by
  rw [UnpackedFloat.unpack]
  dsimp only
  by_cases hones : @unpackExponent .binary64 w = -1#_
  · rw [if_pos hones]
    refine ⟨fun h => ?_, fun h => absurd hones h⟩
    split at h <;> exact absurd h nofun
  · rw [if_neg hones]
    refine ⟨fun _ => hones, fun _ => ?_⟩
    split
    · split <;> rfl
    · rfl

theorem isFinite_of_ofFloat? {x : Float} {b : Binary} (h : Binary.ofFloat? x = some b) :
    x.isFinite = true := by
  refine (isFinite_unpack_iff x.toBits.toBitVec).mpr fun hones => ?_
  have hfield : 2047 = (x.toBits.toNat >>> 52) % 2048 := by
    have htoNat := Binary.unpackExponent_toNat x.toBits.toBitVec
    rw [hones] at htoNat
    exact htoNat
  rw [Binary.ofFloat?, if_pos hfield.symm] at h
  cases h

theorem unpackExponent_pack_neg (u : UnpackedFloat) :
    unpackExponent (UnpackedFloat.pack .binary64 u.neg)
      = unpackExponent (UnpackedFloat.pack .binary64 u) := by
  have hsame : ∀ s t e m, @unpackExponent .binary64 (packComponents .binary64 s e m)
      = @unpackExponent .binary64 (packComponents .binary64 t e m) := fun _ _ _ _ =>
    unpackExponent_packComponents.trans unpackExponent_packComponents.symm
  cases u with
  | notANumber => rfl
  | infinity s => exact hsame (-s) s _ _
  | zero s => exact hsame (-s) s _ _
  | finite s m e hm =>
    rw [UnpackedFloat.neg, UnpackedFloat.pack.eq_def, UnpackedFloat.pack.eq_def]
    dsimp only
    split
    · exact hsame (-s) s _ _
    · split <;> exact hsame (-s) s _ _

theorem isFinite_neg_iff {x : Float} : (-x).isFinite = true ↔ x.isFinite = true := by
  have hword : UnpackedFloat.pack .binary64 (UnpackedFloat.unpack .binary64 x.toBits.toBitVec)
      = x.toBits.toBitVec := pack_unpack_of_valid x.toModel.valid
  refine (isFinite_unpack_iff _).trans (Iff.trans ?_ (isFinite_unpack_iff x.toBits.toBitVec).symm)
  show unpackExponent (UnpackedFloat.pack .binary64
    (UnpackedFloat.unpack .binary64 x.toBits.toBitVec).neg) ≠ _ ↔ _
  rw [unpackExponent_pack_neg, hword]

theorem isFinite_neg {x : Float} (h : x.isFinite = true) : (-x).isFinite = true :=
    isFinite_neg_iff.mpr h

namespace Binary

/-- a whole number is rounded like the quotient by one -/
theorem nearest_eq_nearestRatio {n : ℕ} (hpos : 0 < n) (hword : n ≤ word64) :
    nearest n 0 = nearestRatio n 1 := by
  have hlog := log2_le hpos hword
  have hexp : max (0 + (n.log2 : ℤ) - 52) (-1074) = (n.log2 : ℤ) - 52 := by omega
  have hup : (0 - ((n.log2 : ℤ) - 52)).toNat = 52 - n.log2 := by omega
  have hdown : ((n.log2 : ℤ) - 52 - 0).toNat = n.log2 - 52 := by omega
  have hfield : ((n.log2 : ℤ) - 52 + 1074).toNat = n.log2 + 1022 := by omega
  -- both quotients are the same, one of them with a common factor
  have hnum : n * 2 ^ (52 - n.log2) * 2 ^ (13 - (n.log2 - 52)) = n * 2 ^ (65 - n.log2) := by
    rw [Nat.mul_assoc, ← Nat.pow_add]
    congr 2
    omega
  have hden : 2 ^ (n.log2 - 52) * 2 ^ (13 - (n.log2 - 52)) = 2 ^ 13 := by
    rw [← Nat.pow_add]
    congr 1
    omega
  have hround : halfEven (n * 2 ^ (52 - n.log2)) (2 ^ (n.log2 - 52))
      = halfEven (n * 2 ^ (65 - n.log2)) (2 ^ 13) := by
    rw [← hnum, ← hden]
    exact (halfEven_mul_right _ _ (Nat.two_pow_pos _)).symm
  rw [nearestRatio_one hpos hword, nearest, if_neg hpos.ne']
  simp only [hexp, hup, hdown, hfield, Nat.shiftLeft_eq, one_mul, hround]
  rw [Nat.min_eq_left (word_le hpos hword)]

theorem isFinite_nearest {n : ℕ} (hword : n ≤ word64) : (nearest n 0).isFinite = true := by
  rcases Nat.eq_zero_or_pos n with rfl | hpos
  · decide
  · obtain ⟨b, hb, -⟩ := isCount_nearestRatio hpos hword
    rw [nearest_eq_nearestRatio hpos hword]
    exact isFinite_of_ofFloat? hb

end Binary

namespace Json

theorem ofReal_of_isFinite {x : Float} (h : x.isFinite = true) : ofReal x = .real x := if_pos h

theorem isFinite_ofInteger {n : ℤ} (hlow : -(signBit : ℤ) ≤ n) (hhigh : n ≤ word64) :
    (ofInteger n).isFinite = true := by
  have hnearest : (Binary.nearest n.natAbs 0).isFinite = true :=
    Binary.isFinite_nearest (by simp only [signBit, word64] at *; omega)
  rw [ofInteger]
  split
  · exact isFinite_neg hnearest
  · exact hnearest

end Json

end Figures
