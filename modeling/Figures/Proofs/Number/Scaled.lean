import Figures.Proofs.Number.Within

/-!
# Numbers and their scale

* `finite_of_add`, …       sums, products and quotients are not finite unless their parts are
* `RoundsTo.le`            what is not larger is not larger when rounded, infinities included
* `le_add_of_zero_le`      a sum is no less than its parts
* `Within.scaled`          a part of a whole, times what the whole is scaled with
* `toCount_le`             what is not above a whole number counts as at most that
-/

namespace Figures

open Float.Model UnpackedFloat Binary

/-! ### what is not finite stays so -/

theorem isFinite_add_left {u : UnpackedFloat} (v : UnpackedFloat) (h : u.isFinite = false) :
    (UnpackedFloat.add .binary64 u v).isFinite = false := by
  cases u with
  | notANumber => cases v <;> rfl
  | infinity s =>
    cases v with
    | infinity t =>
      rw [UnpackedFloat.add.eq_def]
      dsimp only
      split <;> rfl
    | _ => rfl
  | zero s => cases h
  | finite s m e hm => cases h

theorem isFinite_mul_right (u : UnpackedFloat) {v : UnpackedFloat} (h : v.isFinite = false) :
    (UnpackedFloat.mul .binary64 u v).isFinite = false := by
  cases v with
  | notANumber => cases u <;> rfl
  | infinity s => cases u <;> rfl
  | zero s => cases h
  | finite s m e hm => cases h

theorem isFinite_div_left {u : UnpackedFloat} (v : UnpackedFloat) (h : u.isFinite = false) :
    (UnpackedFloat.div .binary64 u v).isFinite = false := by
  cases u with
  | notANumber => cases v <;> rfl
  | infinity s => cases v <;> rfl
  | zero s => cases h
  | finite s m e hm => cases h

theorem isFinite_unpack_neg (u : UnpackedFloat) : u.neg.isFinite = u.isFinite := by
  cases u <;> rfl

section
variable {x y : Float}

theorem finite_of_add (h : (x + y).isFinite = true) : x.isFinite = true ∧ y.isFinite = true := by
  refine ⟨?_, isFinite_of_add h⟩
  by_contra hx
  have hsum := isFinite_unpack_pack (isFinite_add_left y.toModel.unpack (Bool.not_eq_true _ ▸ hx))
  exact Bool.false_ne_true (hsum.symm.trans h)

theorem finite_of_sub (h : (x - y).isFinite = true) : x.isFinite = true ∧ y.isFinite = true := by
  have hsub : x.toModel.unpack.sub .binary64 y.toModel.unpack
      = x.toModel.unpack.add .binary64 y.toModel.unpack.neg := sub_eq_add _ _
  change (UnpackedFloat.unpack .binary64 (UnpackedFloat.pack .binary64
    (x.toModel.unpack.sub .binary64 y.toModel.unpack))).isFinite = true at h
  rw [hsub] at h
  constructor
  · by_contra hx
    exact Bool.false_ne_true ((isFinite_unpack_pack
      (isFinite_add_left y.toModel.unpack.neg (Bool.not_eq_true _ ▸ hx))).symm.trans h)
  · by_contra hy
    refine Bool.false_ne_true ((isFinite_unpack_pack
      (isFinite_add_right x.toModel.unpack ?_)).symm.trans h)
    rw [isFinite_unpack_neg]
    exact Bool.not_eq_true _ ▸ hy

theorem finite_of_mul (h : (x * y).isFinite = true) : x.isFinite = true ∧ y.isFinite = true := by
  refine ⟨isFinite_of_mul h, ?_⟩
  by_contra hy
  have hproduct := isFinite_unpack_pack (isFinite_mul_right x.toModel.unpack
    (Bool.not_eq_true _ ▸ hy))
  exact Bool.false_ne_true (hproduct.symm.trans h)

theorem finite_of_div (h : (x / y).isFinite = true) : x.isFinite = true := by
  by_contra hx
  have hquotient := isFinite_unpack_pack (isFinite_div_left y.toModel.unpack
    (Bool.not_eq_true _ ▸ hx))
  exact Bool.false_ne_true (hquotient.symm.trans h)

end

/-! ### rounding keeps the order -/

/-- the nearest of two doubles is not below the nearest of a smaller number: on one grid, both would
have to be ties, and both of them even -/
theorem EvenNearest.place_le {p q : ℚ} {m n : ℕ} {d e : ℤ} (hp : EvenNearest p m d)
    (hq : EvenNearest q n e) (hle : p ≤ q) : place m d ≤ place n e := by
  have hmsmall := hp.le_two_hiddenBit
  have hnfull := hq.full
  have hdlow := hp.low
  rcases lt_trichotomy d e with hlt | rfl | hgt
  · have hfull : hiddenBit ≤ n := hnfull.resolve_right (by omega)
    simp only [place, hiddenBit] at *
    omega
  · have hunit : (0 : ℚ) < 2 ^ d := by positivity
    have hmn : m ≤ n := by
      by_contra hlt
      have hstep : ((n + 1 : ℕ) : ℚ) * 2 ^ d ≤ m * 2 ^ d := by
        gcongr
        omega
      push_cast at hstep
      have hpnear := abs_le.mp ((le_div_iff₀' two_pos).mpr hp.near)
      have hqnear := abs_le.mp ((le_div_iff₀' two_pos).mpr hq.near)
      have hptie : 2 * |p - m * 2 ^ d| = 2 ^ d := by
        rw [abs_of_nonpos (by linarith)]
        linarith
      have hqtie : 2 * |q - n * 2 ^ d| = 2 ^ d := by
        rw [abs_of_nonneg (by linarith)]
        linarith
      have hnext : (m * 2 ^ d : ℚ) = (n + 1 : ℕ) * 2 ^ d := by
        push_cast
        linarith
      have hsucc : m = n + 1 := by exact_mod_cast mul_right_cancel₀ hunit.ne' hnext
      have hmeven := hp.tie hptie
      have hneven := hq.tie hqtie
      omega
    exact Nat.add_le_add_left hmn _
  · have hgrid := hp.grid.resolve_right (by have := hq.low; omega)
    have hexp : (2 : ℚ) ^ (e + 53) ≤ 2 ^ (d + 52) := zpow_le_zpow_right₀ one_le_two (by omega)
    exact absurd (hgrid.trans hle) (not_le.mpr (hq.high.trans_le hexp))

theorem rank_le (x : Float) : rank x ≤ (x.toBits.toNat % signBit : ℕ) := by
  unfold rank
  cases wordSign x.toBits.toNat with
  | negative => exact (neg_nonpos.mpr (Nat.cast_nonneg _)).trans (Nat.cast_nonneg _)
  | positive => exact le_rfl

namespace RoundsTo

variable {p q : ℚ} {x y : Float}

/-- what is not negative is rounded to a finite double, or it is too large -/
theorem finite_or_infinite (h : RoundsTo q x.toBits.toNat) (hq : 0 ≤ q) :
    x.isFinite = true ∨ x = infinite := by
  by_cases hfinite : x.isFinite = true
  · exact .inl hfinite
  refine .inr (eq_of_toBits ?_)
  have hlarge := mt h.isFinite_iff.mpr hfinite
  have hpos : 0 < q := lt_of_le_of_ne hq fun hzero => hlarge (by
    rw [← hzero, abs_zero]
    exact doubleLimit_pos)
  obtain ⟨n, e, -, hword⟩ := h.magnitude
  rw [Nat.mod_eq_of_lt (h.pos hpos)] at hword
  rw [isFinite_iff_word, Nat.mod_eq_of_lt (h.pos hpos), hword, min_lt_iff, not_or] at hfinite
  rw [hword, min_eq_right (Nat.le_of_not_lt hfinite.1)]
  rfl

theorem nonneg (h : RoundsTo q x.toBits.toNat) (hx : x.isFinite = true) (hq : 0 ≤ q) :
    0 ≤ valueOf x := by
  obtain ⟨n, e, -, -, hpos, -⟩ := h.exists_near hx
  exact hpos hq

theorem le (hp : RoundsTo p x.toBits.toNat) (hq : RoundsTo q y.toBits.toNat) (hpos : 0 ≤ p)
    (hle : p ≤ q) : x ≤ y := by
  have hnumber : ∀ {z : Float}, z.isFinite = true ∨ z = infinite → z.isNaN = false := fun h =>
    h.elim isNaN_of_isFinite fun heq => heq ▸ by decide
  rw [le_iff_rank (hnumber (hp.finite_or_infinite hpos))
    (hnumber (hq.finite_or_infinite (hpos.trans hle)))]
  obtain ⟨m, d, hm, hx⟩ := hp.magnitude
  obtain ⟨n, e, hn, hy⟩ := hq.magnitude
  have hplace := hm.place_le hn (by rwa [abs_of_nonneg hpos, abs_of_nonneg (hpos.trans hle)])
  have hwords : x.toBits.toNat % signBit ≤ y.toBits.toNat % signBit := by
    rw [hx, hy]
    exact min_le_min_right _ hplace
  refine (rank_le x).trans ?_
  rcases (hpos.trans hle).eq_or_lt with rfl | hqpos
  · -- both are zero, of whatever sign
    obtain rfl := le_antisymm hle hpos
    have hnone : n = 0 := Nat.le_zero.mp
      (hn.toNearest.le_of_le (by rw [abs_zero, Nat.cast_zero, zero_mul]))
    have hgrid : e = -1074 := hn.full.resolve_left (by rw [hnone]; decide)
    have hzero : y.toBits.toNat % signBit = 0 := by
      rw [hy, hnone, hgrid]
      rfl
    rw [rank, hzero, Nat.le_zero.mp (hwords.trans hzero.le)]
    cases wordSign y.toBits.toNat <;> rfl
  · rw [rank, wordSign, if_neg (Nat.not_le.mpr (hq.pos hqpos))]
    exact Nat.cast_le.mpr hwords

end RoundsTo

/-! ### infinite numbers -/

theorem finite_or_infinite_of_le {x y : Float} (hx : x.isFinite = true) (hle : x ≤ y) :
    y.isFinite = true ∨ y = infinite := by
  have hnumber := (isNaN_of_le hle).2
  cases hexact : ofFloat? y with
  | some b => exact .inl (isFinite_of_ofFloat? hexact)
  | none =>
    have hword := toBits_of_ofFloat?_eq_none hnumber hexact
    rw [le_iff_rank (isNaN_of_isFinite hx) hnumber] at hle
    rw [isFinite_iff_word] at hx
    refine .inr (eq_of_toBits ?_)
    have hunsigned : y.toBits.toNat < signBit := by
      by_contra hsigned
      unfold rank at hle
      rw [hword, wordSign.eq_def y.toBits.toNat, if_pos (Nat.le_of_not_lt hsigned)] at hle
      revert hle
      cases wordSign x.toBits.toNat <;> simp only [Sign.apply] <;> omega
    rw [← Nat.mod_eq_of_lt hunsigned, hword]
    rfl

/-- a finite number is nothing in terms of the infinity -/
theorem div_infinite {x : Float} (h : x.isFinite = true) :
    (x / infinite).isFinite = true ∧ valueOf (x / infinite) = 0 := by
  obtain ⟨s, n, e, -, -, hparts⟩ := exists_parts h
  have hinfinite : infinite.toModel.unpack = .infinity .positive := by rfl
  have hquotient : UnpackedFloat.div .binary64 (partsOf s n e) (.infinity .positive)
      = .zero (s / .positive) := by
    rcases Nat.eq_zero_or_pos n with rfl | hpos
    · rw [partsOf_zero]
      rfl
    · rw [partsOf_pos s e hpos]
      rfl
  have hrounds : RoundsTo 0 (x / infinite).toBits.toNat := by
    rw [toBits_div, hinfinite, hparts, hquotient]
    exact RoundsTo.zero _
  obtain ⟨hfinite, hle⟩ := hrounds.abs_le_of_le (show 0 < 2 * hiddenBit by decide) (by simp)
  rw [Nat.cast_zero, abs_nonpos_iff] at hle
  exact ⟨hfinite, hle⟩

theorem lt_infinite {x : Float} (h : x.isFinite = true) : x < infinite := by
  rw [lt_iff_rank (isNaN_of_isFinite h) (by decide)]
  have hword := (isFinite_iff_word x).mp h
  have hrank : rank infinite = (2047 * hiddenBit : ℕ) := by decide
  rw [hrank]
  exact lt_of_le_of_lt (rank_le x) (by omega)

theorem le_infinite {x : Float} (h : x.isFinite = true) : x ≤ infinite :=
    float_le_of_lt (lt_infinite h)

theorem add_infinite {x : Float} (h : x.isFinite = true) : x + infinite = infinite := by
  obtain ⟨s, n, e, -, -, hparts⟩ := exists_parts h
  have hinfinite : infinite.toModel.unpack = .infinity .positive := by rfl
  have hsum : UnpackedFloat.add .binary64 (partsOf s n e) (.infinity .positive) =
      .infinity .positive := by
    rcases Nat.eq_zero_or_pos n with rfl | hpos
    · rw [partsOf_zero]
      rfl
    · rw [partsOf_pos s e hpos]
      rfl
  refine eq_of_toBits ?_
  rw [toBits_add, hinfinite, hparts, hsum]
  rfl

/-! ### numbers that are not negative -/

section
variable {x y : Float}

theorem zero_le_iff (h : x.isFinite = true) : 0.0 ≤ x ↔ 0 ≤ valueOf x := by
  have hzero : valueOf 0.0 = 0 := (beq_zero_iff (by decide)).mp (by decide)
  rw [le_iff_valueOf (by decide) h, hzero]

theorem zero_le_of_roundsTo {q : ℚ} (h : RoundsTo q x.toBits.toNat) (hq : 0 ≤ q) : 0.0 ≤ x := by
  rcases h.finite_or_infinite hq with hfinite | rfl
  · exact (zero_le_iff hfinite).mpr (h.nonneg hfinite hq)
  · decide

theorem le_add_of_zero_le (hx : x.isFinite = true) (hpos : 0 ≤ valueOf x) (hy : 0.0 ≤ y) :
    x ≤ x + y := by
  rcases finite_or_infinite_of_le (by decide) hy with hfinite | rfl
  · rw [zero_le_iff hfinite] at hy
    exact (roundsTo_self hx).le (roundsTo_add hx hfinite) hpos (le_add_of_nonneg_right hy)
  · rw [add_infinite hx]
    exact le_infinite hx

theorem zero_le_mul (hx : x.isFinite = true) (hxpos : 0 ≤ valueOf x) (hy : y.isFinite = true)
    (hypos : 0 ≤ valueOf y) : 0.0 ≤ x * y :=
  zero_le_of_roundsTo (roundsTo_mul hx hy) (mul_nonneg hxpos hypos)

/-- a room holds a span a number of times, or infinitely often -/
theorem zero_le_div {k s : Float} (hk : k.isFinite = true) (hkpos : 0 ≤ valueOf k)
    (hx : x.isFinite = true) (hpos : 0 < valueOf x) (hxs : x ≤ s) : 0.0 ≤ k / s := by
  rcases finite_or_infinite_of_le hx hxs with hs | rfl
  · have hspos := hpos.trans_le ((le_iff_valueOf hx hs).mp hxs)
    exact zero_le_of_roundsTo (roundsTo_div hk hs hspos.ne') (div_nonneg hkpos hspos.le)
  · obtain ⟨hfinite, hvalue⟩ := div_infinite hk
    exact (zero_le_iff hfinite).mpr hvalue.ge

end

/-! ### scaled numbers -/

/-- the smallest double, taken as often as the largest doubles are large -/
theorem mul_smallest_le {x : Float} (h : x.isFinite = true) : |valueOf x| * 2 ^
    (-1074 : ℤ) ≤ 1 := by
  have hlimit : doubleLimit ≤ 2 ^ (1024 : ℤ) := by
    rw [doubleLimit]
    exact sub_le_self _ (by positivity)
  calc |valueOf x| * 2 ^ (-1074 : ℤ) ≤ 2 ^ (1024 : ℤ) * 2 ^ (-1074 : ℤ) := by
        gcongr
        exact (abs_valueOf_lt h).le.trans hlimit
    _ = 2 ^ (-50 : ℤ) := by
        rw [← zpow_add₀ two_ne_zero]
        rfl
    _ ≤ 1 := zpow_le_one_of_nonpos₀ one_le_two (by decide)

section
variable {n : ℕ} {k s x scale : Float}

/-- what a whole is scaled with to `k` takes a part of the whole to at most `k`, up to rounding. The
whole may be too large for a double; then it is scaled to nothing. -/
theorem mul_scale_le (hk : k.isFinite = true ∧ |valueOf k| ≤ n) (hx : x.isFinite = true)
    (hpos : 0 ≤ valueOf x) (hxs : x ≤ s) (hscale : scale.isFinite = true)
    (hnonneg : 0 ≤ valueOf scale) (hle : scale ≤ k / s) :
    valueOf x * valueOf scale ≤ 2 * n + 1 := by
  obtain ⟨hkfinite, hkle⟩ := hk
  have hn : (0 : ℚ) ≤ n := Nat.cast_nonneg n
  rcases finite_or_infinite_of_le hx hxs with hs | rfl
  · rw [le_iff_valueOf hx hs] at hxs
    rcases hpos.eq_or_lt with hzero | hpos
    · rw [← hzero, zero_mul]
      linarith
    have hspos : 0 < valueOf s := hpos.trans_le hxs
    have hdiv := roundsTo_div hkfinite hs hspos.ne'
    have hquotient : valueOf s * |valueOf k / valueOf s| ≤ n := by
      rwa [abs_div, abs_of_pos hspos, mul_div_cancel₀ _ hspos.ne']
    refine (mul_le_mul_of_nonneg_right hxs hnonneg).trans ?_
    by_cases hq : (k / s).isFinite = true
    · rw [le_iff_valueOf hscale hq] at hle
      have hrounded := mul_le_mul_of_nonneg_left (hdiv.abs_valueOf_le hq) hspos.le
      have hhidden : (1 : ℚ) ≤ hiddenBit := by decide
      have hpart : valueOf s * (|valueOf k / valueOf s| / hiddenBit) ≤ n := by
        rw [← mul_div_assoc]
        exact (div_le_self (by positivity) hhidden).trans hquotient
      have hsmallest := mul_smallest_le hs
      have hsize := mul_le_mul_of_nonneg_left (hle.trans (le_abs_self _)) hspos.le
      rw [abs_of_pos hspos] at hsmallest
      linarith
    · -- the quotient is above the limit, so the whole is small
      rw [hdiv.isFinite_iff, not_lt] at hq
      have hlimit := (le_abs_self _).trans_lt (abs_valueOf_lt hscale)
      linarith [mul_le_mul_of_nonneg_left (hlimit.le.trans hq) hspos.le]
  · obtain ⟨hzero, hvalue⟩ := div_infinite hkfinite
    rw [le_iff_valueOf hscale hzero, hvalue] at hle
    rw [le_antisymm hle hnonneg, mul_zero]
    linarith

theorem Within.scaled (hk : Within n k) (hx : x.isFinite = true) (hpos : 0 ≤ valueOf x)
    (hxs : x ≤ s)
    (hscale : scale.isFinite = true) (hnonneg : 0 ≤ valueOf scale) (hle : scale ≤ k / s) :
    Within (2 * n + 1) (x * scale) := by
  intro hsmall
  refine (roundsTo_mul hx hscale).abs_le_of_le hsmall ?_
  rw [abs_of_nonneg (mul_nonneg hpos hnonneg), Nat.cast_succ, Nat.cast_mul, Nat.cast_ofNat]
  exact mul_scale_le (hk (by omega)) hx hpos hxs hscale hnonneg hle

/-- a room is not left by what is scaled to it, even if only a good part of it is in the whole -/
theorem Within.scaled_part {t : Float} (hk : Within n k) (hx : x.isFinite = true)
    (hpos : 0 ≤ valueOf x) (ht : t.isFinite = true) (hlow : 1 / 4 ≤ valueOf t)
    (hpart : (x * t).isFinite = true) (hxs : x * t ≤ s)
    (hscale : scale.isFinite = true) (hnonneg : 0 ≤ valueOf scale) (hle : scale ≤ k / s) :
    Within (16 * n + 16) (x * scale) := by
  intro hsmall
  refine (roundsTo_mul hx hscale).abs_le_of_le hsmall ?_
  have hrounds := roundsTo_mul hx ht
  have hproduct : 0 ≤ valueOf x * valueOf t := mul_nonneg hpos (by linarith)
  have hside := hrounds.nonneg hpart hproduct
  have hscaled := mul_scale_le (hk (by omega)) hpart hside hxs hscale hnonneg hle
  have hquarter : valueOf x / 4 ≤ valueOf x * valueOf t := by
    linarith [mul_le_mul_of_nonneg_left hlow hpos]
  -- what is lost by rounding the part is no more than half of it, and the smallest double
  have herror := (le_abs_self _).trans ((le_div_iff₀' two_pos).mpr (hrounds.error hpart))
  have hhalf : valueOf x * valueOf t / hiddenBit ≤ valueOf x * valueOf t :=
    div_le_self hproduct (by decide)
  rw [abs_of_nonneg hproduct, abs_of_nonneg hside] at herror
  have hwhole : valueOf x ≤ 8 * valueOf (x * t) + 4 * 2 ^ (-1074 : ℤ) := by linarith
  have hsmallest := mul_smallest_le hscale
  rw [abs_of_nonneg hnonneg] at hsmallest
  rw [abs_of_nonneg (mul_nonneg hpos hnonneg), Nat.cast_add, Nat.cast_mul]
  push_cast
  linarith [mul_le_mul_of_nonneg_right hwhole hnonneg]

end

/-! ### the smaller and the larger of two numbers -/

section
variable {x y : Float}

theorem le_self {x : Float} (h : x.isNaN = false) : x ≤ x := (le_iff_rank h h).mpr le_rfl

theorem lesser_cases (x y : Float) : lesser x y = x ∨ lesser x y = y := by
  unfold lesser
  split
  · exact .inr rfl
  · split
    · exact .inr rfl
    · exact .inl rfl

theorem greater_cases (x y : Float) : greater x y = x ∨ greater x y = y := by
  unfold greater
  split
  · exact .inr rfl
  · split
    · exact .inr rfl
    · exact .inl rfl

theorem lesser_le_left (hx : x.isNaN = false) : lesser x y ≤ x := by
  rw [lesser, hx, if_neg Bool.false_ne_true]
  split
  · exact float_le_of_lt ‹_›
  · exact le_self hx

theorem lesser_le_right (hy : y.isNaN = false) : lesser x y ≤ y := by
  unfold lesser
  split
  · exact le_self hy
  · split
    · exact le_self hy
    · exact le_of_not_lt (Bool.eq_false_of_not_eq_true ‹_›) hy ‹_›

theorem left_le_greater (hx : x.isNaN = false) : x ≤ greater x y := by
  rw [greater, hx, if_neg Bool.false_ne_true]
  split
  · exact float_le_of_lt ‹_›
  · exact le_self hx

theorem right_le_greater (hy : y.isNaN = false) : y ≤ greater x y := by
  unfold greater
  split
  · exact le_self hy
  · split
    · exact le_self hy
    · exact le_of_not_lt hy (Bool.eq_false_of_not_eq_true ‹_›) ‹_›

end

theorem clamp_bounds {lo hi x : Float} (hle : lo ≤ hi) (hx : x.isNaN = false) :
    lo ≤ clamp lo hi x ∧ clamp lo hi x ≤ hi := by
  obtain ⟨hlo, hhi⟩ := isNaN_of_le hle
  unfold clamp
  split
  · exact ⟨le_self hlo, hle⟩
  · rename_i hlow
    split
    · exact ⟨hle, le_self hhi⟩
    · rename_i hhigh
      exact ⟨le_of_not_lt hlo hx hlow, le_of_not_lt hx hhi hhigh⟩

/-! ### counting -/

theorem truncated_eq_zero {x : Float} {b : Binary} (hb : ofFloat? x = some b)
    (hsign : b.negative = false) (h : ¬ 0.0 < x) : b.truncated = 0 := by
  have hfinite : x.isFinite = true := isFinite_of_ofFloat? hb
  have hle := (le_iff_valueOf hfinite (by decide)).mp
    (le_of_not_lt (isNaN_of_isFinite hfinite) (by decide) h)
  have hzero : valueOf 0.0 = 0 := (beq_zero_iff (by decide)).mp (by decide)
  have hvalue : valueOf x = b.significand * 2 ^ b.exponent := by
    rw [valueOf, hb, Option.map_some, Option.getD_some, Binary.value, hsign,
      if_neg Bool.false_ne_true, one_mul]
  rw [hzero, hvalue] at hle
  exact (truncated_eq_floor rfl).trans (Nat.floor_of_nonpos hle)

theorem toCount_eq_zero {x : Float} (h : ¬ 0.0 < x) (limit : ℕ) : toCount limit x = 0 := by
  rw [toCount]
  split
  · exact if_neg h
  · rename_i b hb
    split_ifs with hneg
    · rfl
    · rw [truncated_eq_zero hb (Bool.not_eq_true _ ▸ hneg) h, Nat.min_zero]

theorem not_floor_pos {x : Float} (h : ¬ 0.0 < x) : ¬ 0.0 < floor x := by
  rw [floor]
  split
  · exact h
  · rename_i b hb
    dsimp only
    cases hsign : b.negative with
    | false =>
      rw [truncated_eq_zero hb hsign h, Bool.false_and, if_neg Bool.false_ne_true]
      decide
    | true =>
      rw [whole, if_pos rfl]
      rcases (rounds_nearest _ 0).cases with ⟨v, hv⟩ | hinfinite
      · have hfinite := isFinite_neg hv.isFinite
        have hnonpos := neg_nonpos.mpr hv.nonneg
        rw [← hv.valueOf_eq, ← valueOf_neg hv.isFinite] at hnonpos
        have hzero : valueOf 0.0 = 0 := (beq_zero_iff (by decide)).mp (by decide)
        rw [← hzero, ← le_iff_valueOf hfinite (by decide)] at hnonpos
        exact not_lt_of_le hnonpos
      · rw [hinfinite]
        decide

section
variable {x : Float} {n : ℕ} (hn : n < 2 * hiddenBit) (h : ¬ Float.ofNat n < x)
include hn h

theorem exists_amount_le (hpos : 0.0 < x) : ∃ v, IsAmount x v ∧ v ≤ n := by
  obtain ⟨hfinite, hvalue⟩ := valueOf_ofNat hn
  rcases exists_amount_of_pos hpos with ⟨v, -, hv⟩ | rfl
  · have hle := le_of_not_lt (isNaN_of_isFinite hv.isFinite) (isNaN_of_isFinite hfinite) h
    rw [le_iff_valueOf hv.isFinite hfinite, hvalue, hv.valueOf_eq] at hle
    exact ⟨v, hv, hle⟩
  · exact absurd (lt_infinite hfinite) h

theorem toCount_le (limit : ℕ) : toCount limit x ≤ n := by
  by_cases hpos : 0.0 < x
  · obtain ⟨v, hv, hle⟩ := exists_amount_le hn h hpos
    rw [toCount_eq hv]
    exact (Nat.min_le_right _ _).trans (Nat.floor_le_of_le hle)
  · rw [toCount_eq_zero hpos]
    exact n.zero_le

theorem toCount_floor_le (limit : ℕ) : toCount limit (floor x) ≤ n := by
  by_cases hpos : 0.0 < x
  · obtain ⟨v, hv, hle⟩ := exists_amount_le hn h hpos
    have hfloor := Nat.floor_le_of_le hle
    rw [floor_eq hv, toCount_eq (isAmount_whole (hfloor.trans_lt hn)), Nat.floor_natCast]
    exact (Nat.min_le_right _ _).trans hfloor
  · rw [toCount_eq_zero (not_floor_pos hpos)]
    exact n.zero_le

end

end Figures
