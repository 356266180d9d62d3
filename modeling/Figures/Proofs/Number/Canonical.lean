import Figures.Number.Reading
import Figures.Proofs.Number.Within

/-!
# Decimals in markup are canonical

* `Canonical p s`            a sign or none, a whole part without leading zeros, and perhaps at most
                             `p` places, the last of which is not zero
* `canonical_tidy`           so is a double in markup, and it is never `-0`
* `readNumber?_text`         a decimal is read as the double of its units and places
* `Closest q y`              no finite double is closer to `q` than `y`
* `exists_closest_read`      a double in markup is read as one that is closest to what it denotes
* `tidy_of_closest`          and what is closest to it looks the same
* `tidy_canonical`           all of this in one statement

A rounded double may have moved onto a tie again when it is read back. It is no further from the
decimal than the double that was rounded, so then that one was a tie, too, and the decimal is the
even one.
-/

namespace Figures

open Binary

/-! ### the form of a decimal -/

/-- a zero, or digits that do not begin with one -/
def IsWhole (cs : List Char) : Prop :=
  cs = ['0'] ∨ ∃ d ds, cs = d :: ds ∧ d.isDigit = true ∧ d ≠ '0' ∧ ds.all Char.isDigit = true

/-- digits that do not end with a zero -/
def IsPlaces (cs : List Char) : Prop :=
  ∃ ds d, cs = ds ++ [d] ∧ ds.all Char.isDigit = true ∧ d.isDigit = true ∧ d ≠ '0'

/-- a sign or none, a whole part, and perhaps a point with at most `p` places -/
def Canonical (p : ℕ) (s : String) : Prop :=
  ∃ sign whole fraction, s.toList = sign ++ whole ++ fraction ∧ (sign = [] ∨ sign = ['-']) ∧
    IsWhole whole ∧
    (fraction = [] ∨ ∃ places, fraction = '.' :: places ∧ IsPlaces places ∧ places.length ≤ p)

theorem isWhole_repr (n : ℕ) : IsWhole (Nat.repr n).toList := by
  by_cases hn : n = 0
  · exact .inl (hn ▸ rfl)
  · obtain ⟨d, ds, hrepr⟩ := List.exists_cons_of_ne_nil (repr_ne_nil n)
    have hdigits := repr_digits n
    have hhead := head?_toDigits hn
    rw [← Nat.toList_repr, hrepr, List.head?_cons] at hhead
    rw [hrepr, List.all_cons, Bool.and_eq_true] at hdigits
    exact .inr ⟨d, ds, hrepr, hdigits.1, fun hd => hhead (congrArg some hd), hdigits.2⟩

namespace Fixed

theorem lastDigits_succ (n width : ℕ) :
    lastDigits n (width + 1) [] = lastDigits (n / 10) width [] ++ [Nat.digitChar (n % 10)] := by
  rw [lastDigits, lastDigits_append]

theorem isPlaces_lastDigits {n width : ℕ} (hlast : n % 10 ≠ 0) (hwidth : width ≠ 0) :
    IsPlaces (lastDigits n width []) := by
  obtain ⟨w, rfl⟩ := Nat.exists_eq_succ_of_ne_zero hwidth
  refine ⟨_, _, lastDigits_succ n w, isDigit_lastDigits _ _, ?_, fun h =>
    hlast (Nat.digitChar_eq_zero.mp h)⟩
  rw [Nat.isDigit_digitChar, decide_eq_true (Nat.mod_lt n (by decide))]

/-- no zero is left at the end, and no place is added -/
theorem shortenAux_places (negative : Bool) (units p : ℕ) :
    (shortenAux negative units p).places ≤ p ∧
      ((shortenAux negative units p).places ≠ 0 →
        (shortenAux negative units p).units % 10 ≠ 0) := by
  induction p generalizing units with
  | zero => exact ⟨le_rfl, fun h => absurd rfl h⟩
  | succ p ih =>
    rw [shortenAux]
    split_ifs with hzero
    · exact ⟨(ih _).1.trans p.le_succ, (ih _).2⟩
    · exact ⟨le_rfl, fun _ => hzero⟩

theorem canonical_shorten (d : Fixed) : Canonical d.places d.shorten.text := by
  obtain ⟨hplaces, hlast⟩ := shortenAux_places d.negative d.units d.places
  rw [← shorten] at hplaces hlast
  refine ⟨_, _, _, d.shorten.toList_text, ?_, isWhole_repr _, ?_⟩
  · cases d.shorten.negative with
    | false => exact .inl rfl
    | true => exact .inr rfl
  · split_ifs with hzero
    · exact .inl rfl
    · exact .inr ⟨_, rfl, isPlaces_lastDigits (hlast hzero) hzero,
        (length_lastDigits _ _).trans_le hplaces⟩

theorem shorten_zero (places : ℕ) : (⟨false, 0, places⟩ : Fixed).shorten = ⟨false, 0, 0⟩ := by
  show shortenAux false 0 places = _
  induction places with
  | zero => rfl
  | succ p ih => exact ih

end Fixed

theorem tidy_of_rounded_eq_zero {places : ℕ} {x : Float} (h : rounded places x = 0) :
    tidy places x = "0" := by
  have hunit : (0 : ℚ) < 10 ^ places := by positivity
  rw [rounded, div_eq_zero_iff, or_iff_left hunit.ne', Int.cast_eq_zero] at h
  rw [tidy_eq, h]
  exact congrArg Fixed.text (Fixed.shorten_zero places)

theorem canonical_tidy (places : ℕ) (x : Float) : Canonical places (tidy places x) ∧
    tidy places x ≠ "-0" := by
  refine ⟨?_, fun h => ?_⟩
  · rw [tidy_eq]
    exact Fixed.canonical_shorten (Fixed.ofInt places (unitsOf places x))
  · have hvalue := decimal?_tidy places x
    have hzero : decimal? "-0" = some 0 := by decide +kernel
    rw [h, hzero] at hvalue
    have hpositive := tidy_of_rounded_eq_zero (Option.some.inj hvalue).symm
    rw [h] at hpositive
    exact absurd hpositive (by decide)

/-! ### decimals are read -/

theorem toLower_of_isDigit {c : Char} (h : c.isDigit = true) : c.toLower = c := by
  rw [Char.isDigit, Bool.and_eq_true, decide_eq_true_iff, decide_eq_true_iff] at h
  unfold Char.toLower
  rw [dif_neg]
  intro hupper
  exact absurd (UInt32.le_trans hupper.1 h.2) (by decide)

theorem ne_name_of_digit {c : Char} (h : c.isDigit = true) (cs : List Char) (name : String)
    (hname : name.toList.head?.any Char.isDigit = false) :
    String.ofList ((c :: cs).map Char.toLower) ≠ name := by
  rintro rfl
  rw [String.toList_ofList, List.map_cons, toLower_of_isDigit h, List.head?_cons,
    Option.any_some, h] at hname
  exact absurd hname (by decide)

theorem readNumber?_of_digit {c : Char} {cs : List Char} {s : String} {negative : Bool}
    (h : c.isDigit = true) (hsign : splitSign s.toList = (negative, c :: cs)) :
    readNumber? s = (readDecimal? (c :: cs)).map fun x => if negative then -x else x := by
  have hinf := ne_name_of_digit h cs "inf" (by decide)
  have hinfinity := ne_name_of_digit h cs "infinity" (by decide)
  have hnan := ne_name_of_digit h cs "nan" (by decide)
  rw [readNumber?, hsign]
  simp only [hinf, hinfinity, hnan, or_false, if_false]

section
variable {whole places : List Char} (hne : whole ≠ []) (hwhole : whole.all Char.isDigit = true)
include hne hwhole

theorem readDecimal?_digits : readDecimal? whole
    = some (nearestDecimal (digitsValue 0 whole) whole.length (-((0 : ℕ) : ℤ))) := by
  have hall := List.all_eq_true.mp hwhole
  rw [readDecimal?, List.takeWhile_eq_self_iff.mpr hall, List.dropWhile_eq_nil_iff.mpr hall]
  simp [hne, readPower?]

theorem readDecimal?_point (hplaces : places.all Char.isDigit = true) :
    readDecimal? (whole ++ '.' :: places)
    = some (nearestDecimal (digitsValue 0 (whole ++ places)) (whole ++ places).length
      (-(places.length : ℤ))) := by
  have hall := List.all_eq_true.mp hplaces
  obtain ⟨htake, hdrop⟩ := span_point hwhole places
  rw [readDecimal?, htake, hdrop]
  simp [hne, readPower?, List.takeWhile_eq_self_iff.mpr hall, List.dropWhile_eq_nil_iff.mpr hall]

end

theorem readNumber?_text (d : Fixed) : ∃ len, d.places ≤ len ∧ readNumber? d.text
    = some (if d.negative then -nearestDecimal d.units len (-(d.places : ℤ))
        else nearestDecimal d.units len (-(d.places : ℤ))) := by
  have hdigits := repr_digits (d.units / powerOfTen d.places)
  have hunits := d.digitsValue_text
  have htext := d.toList_text
  obtain ⟨c, cs, hrepr⟩ := List.exists_cons_of_ne_nil (repr_ne_nil (d.units / powerOfTen d.places))
  rw [hrepr] at hdigits hunits htext
  have hc : c.isDigit = true := List.all_eq_true.mp hdigits c List.mem_cons_self
  have hread : ∀ fraction, d.text.toList = (if d.negative then ['-'] else []) ++
      (c :: cs) ++ fraction →
      readNumber? d.text = (readDecimal? (c :: cs ++ fraction)).map fun x =>
      if d.negative then -x else x := by
    intro fraction heq
    refine readNumber?_of_digit hc ?_
    rw [heq, List.append_assoc]
    exact splitSign_sign _ (List.cons_ne_nil _ _) fun x hx => Option.some.inj hx ▸ hc
  by_cases hplaces : d.places = 0
  · rw [if_pos hplaces] at htext
    rw [hplaces, Fixed.lastDigits, List.append_nil] at hunits
    refine ⟨(c :: cs).length, hplaces ▸ Nat.zero_le _, ?_⟩
    rw [hread _ htext, List.append_nil, readDecimal?_digits (List.cons_ne_nil _ _) hdigits,
      hunits, hplaces]
    rfl
  · rw [if_neg hplaces] at htext
    have hlength := Fixed.length_lastDigits d.units d.places
    refine ⟨(c :: cs ++ Fixed.lastDigits d.units d.places []).length, ?_, ?_⟩
    · rw [List.length_append, hlength]
      exact Nat.le_add_left _ _
    · rw [hread _ htext, readDecimal?_point (List.cons_ne_nil _ _) hdigits
        (Fixed.isDigit_lastDigits _ _), hunits, hlength]
      rfl

/-! ### closest doubles -/

/-- no finite double is closer to `q` -/
def Closest (q : ℚ) (y : Float) : Prop :=
  y.isFinite = true ∧ ∀ z : Float, z.isFinite = true → |q - valueOf y| ≤ |q - valueOf z|

namespace Nearest

variable {q : ℚ} {n : ℕ} {e : ℤ}

theorem le_units (h : Nearest q n e) (k : ℕ) : |q - n * 2 ^ e| ≤ |q - k * 2 ^ e| := by
  rcases eq_or_ne k n with rfl | hne
  · exact le_rfl
  · have hunit : (0 : ℚ) < 2 ^ e := by positivity
    have hone : (1 : ℚ) ≤ |(n : ℚ) - k| := by
      exact_mod_cast Int.one_le_abs (sub_ne_zero.mpr (Nat.cast_injective.ne hne.symm : (n : ℤ) ≠ k))
    have hapart : (2 : ℚ) ^ e ≤ |(n * 2 ^ e - k * 2 ^ e : ℚ)| := by
      rw [← sub_mul, abs_mul, abs_of_pos hunit]
      exact le_mul_of_one_le_left hunit.le hone
    have htriangle := abs_sub_le (n * 2 ^ e : ℚ) q (k * 2 ^ e)
    rw [abs_sub_comm (n * 2 ^ e : ℚ) q] at htriangle
    linarith [h.near]

theorem le_amount (h : Nearest q n e) {m : ℕ} {d : ℤ} (hm : Normal m d) :
    |q - n * 2 ^ e| ≤ |q - m * 2 ^ d| := by
  rcases le_or_gt e d with hed | hde
  · obtain ⟨k, hk⟩ := exists_units hed m
    rw [hk]
    exact h.le_units k
  · -- an amount with a smaller unit is below the hidden bit, which is not above `q`
    have hgrid := h.grid.resolve_right (by have := hm.low; omega)
    have hlt := lt_of_exponent_lt hm hde
    have hbit : (hiddenBit * 2 ^ e : ℚ) = 2 ^ (e + 52) := by
      rw [two_pow_hiddenBit, ← zpow_add₀ two_ne_zero, add_comm]
    refine (h.le_units hiddenBit).trans ?_
    rw [hbit, abs_of_nonneg (by linarith), abs_of_nonneg (by linarith)]
    linarith

end Nearest

theorem Rounds.closest {q : ℚ} {y : Float} (h : Rounds q y) (hq : 0 ≤ q)
    (hfinite : y.isFinite = true) :
    Closest q y := by
  obtain ⟨n, e, hnearest, hword⟩ := h
  rcases amount_or_infinite hnearest hword with hy | ⟨rfl, -⟩
  · refine ⟨hfinite, fun z hz => ?_⟩
    obtain ⟨m, d, hm, -, hvalue⟩ := exists_word hz
    have hsize : |valueOf z| = m * 2 ^ d := by rw [hvalue, abs_signFactor_mul _ (by positivity)]
    rw [hy.valueOf_eq]
    refine (hnearest.le_amount hm).trans ?_
    rw [← hsize]
    -- the other sign is further away from `q`, which is not negative
    refine (abs_abs_sub_abs_le q (valueOf z)).trans' ?_
    rw [abs_of_nonneg hq]
  · exact absurd hfinite (by decide)

theorem Closest.neg {q : ℚ} {y : Float} (h : Closest q y) : Closest (-q) (-y) := by
  refine ⟨isFinite_neg h.1, fun z hz => ?_⟩
  have hclose := h.2 (-z) (isFinite_neg hz)
  rw [valueOf_neg hz, sub_neg_eq_add] at hclose
  rw [valueOf_neg h.1, ← abs_neg, ← abs_neg (-q - valueOf z)]
  simpa [add_comm, sub_eq_add_neg] using hclose

/-- a decimal below the limit is read as a double that is closest -/
theorem closest_nearestDecimal {m len places : ℕ} (h : places ≤ len)
    (hlimit : (m / 10 ^ places : ℚ) < doubleLimit) :
    Closest (m / 10 ^ places) (nearestDecimal m len (-(places : ℤ))) := by
  have hfinite := (isFinite_nearestDecimal m h).mpr hlimit
  rcases Nat.eq_zero_or_pos m with rfl | hm
  · refine ⟨hfinite, fun z _ => ?_⟩
    rw [nearestDecimal, if_pos rfl, isAmount_zero.valueOf_eq, Nat.cast_zero, zero_div,
      sub_zero, abs_zero]
    exact abs_nonneg _
  · have hrounds := rounds_nearestRatio hm (powerOfTen_pos places)
    rw [nearestDecimal_places h hm] at hfinite ⊢
    rw [cast_powerOfTen] at hrounds
    exact hrounds.closest (by positivity) hfinite

theorem Fixed.closest_text (d : Fixed) (hlimit : |d.value| < doubleLimit) :
    ∃ y, readNumber? d.text = some y ∧ Closest d.value y := by
  obtain ⟨len, hlen, hread⟩ := readNumber?_text d
  have hnonneg : (0 : ℚ) ≤ d.units / 10 ^ d.places := by positivity
  refine ⟨_, hread, ?_⟩
  rw [value] at hlimit ⊢
  cases hsign : d.negative with
  | false =>
    rw [hsign, if_neg Bool.false_ne_true, one_mul, abs_of_nonneg hnonneg] at hlimit
    rw [if_neg Bool.false_ne_true, if_neg Bool.false_ne_true, one_mul]
    exact closest_nearestDecimal hlen hlimit
  | true =>
    rw [hsign, if_pos rfl, neg_one_mul, abs_neg, abs_of_nonneg hnonneg] at hlimit
    rw [if_pos rfl, if_pos rfl, neg_one_mul]
    exact (closest_nearestDecimal hlen hlimit).neg

/-! ### doubles in markup are read back -/

theorem rounded_near (places : ℕ) (x : Float) : 2 * |valueOf x - rounded places x| ≤ 1 := by
  have hunit : (1 : ℚ) ≤ 10 ^ places := one_le_pow₀ (by norm_num)
  have hnear := (nearestEven_spec (valueOf x * 10 ^ places)).near
  rw [← unitsOf, ← div_mul_cancel₀ (unitsOf places x : ℚ) (by positivity : (10 ^ places : ℚ) ≠ 0),
    ← rounded, ← sub_mul, abs_mul, abs_of_pos (by positivity : (0 : ℚ) < 10 ^ places)] at hnear
  linarith [le_mul_of_one_le_right (abs_nonneg (valueOf x - rounded places x)) hunit]

theorem abs_rounded_lt (places : ℕ) {x : Float} (h : x.isFinite = true) :
    |rounded places x| < doubleLimit := by
  have hone : (1 : ℚ) < halfPlace := by
    unfold halfPlace
    exact one_lt_zpow₀ one_lt_two (by decide)
  have htriangle := abs_sub_abs_le_abs_sub (rounded places x) (valueOf x)
  rw [abs_sub_comm] at htriangle
  linarith [rounded_near places x, abs_valueOf_add_halfPlace_le h]

theorem exists_closest_read (places : ℕ) {x : Float} (h : x.isFinite = true) :
    ∃ y, readNumber? (tidy places x) = some y ∧ Closest (rounded places x) y := by
  have hvalue : (Fixed.ofInt places (unitsOf places x)).shorten.value = rounded places x := by
    rw [Fixed.value_shorten, Fixed.value_ofInt, rounded]
  rw [tidy_eq, ← hvalue]
  exact Fixed.closest_text _ (hvalue ▸ abs_rounded_lt places h)

/-- what is at least as near to a decimal as a double that is rounded to it, is rounded to it -/
theorem NearestEven.of_near {q r : ℚ} {n : ℤ} (h : NearestEven q n) (hr : |r - n| ≤ |q - n|) :
    NearestEven r n where
  near := by linarith [h.near]
  tie htie := h.tie (le_antisymm h.near (by linarith))

theorem tidy_of_closest {places : ℕ} {x y : Float} (hx : x.isFinite = true)
    (hy : Closest (rounded places x) y) :
    tidy places y = tidy places x := by
  have hunit : (0 : ℚ) < 10 ^ places := by positivity
  have hscale : ∀ z : Float, |valueOf z * 10 ^ places - unitsOf places x|
      = |rounded places x - valueOf z| * 10 ^ places := by
    intro z
    rw [rounded, abs_sub_comm, ← abs_of_pos hunit, ← abs_mul, abs_of_pos hunit, sub_mul,
      div_mul_cancel₀ _ hunit.ne']
  have hnear : |valueOf y * 10 ^ places - unitsOf places x| ≤ |valueOf x * 10 ^ places - unitsOf
      places x| := by
    rw [hscale, hscale]
    exact mul_le_mul_of_nonneg_right (hy.2 x hx) hunit.le
  have hunits : unitsOf places y = unitsOf places x := ((nearestEven_spec _).of_near hnear).eq
  rw [tidy_eq, tidy_eq, hunits]

/-- **Numbers in markup are canonical.** A finite double is written with a sign or none, without
leading and trailing zeros, with at most `places` places and never as `-0`. The text denotes the
exact value of the double, rounded to whole units of the last place, a half to the even one; two
doubles have the same text if and only if they are rounded to the same. Read as a closest double the
text comes out the same again, whichever of two closest doubles is taken, and the text is read as
one. -/
theorem tidy_canonical (places : ℕ) (x : Float) (hx : x.isFinite = true) :
    (Canonical places (tidy places x) ∧ tidy places x ≠ "-0") ∧
      (∃ units : ℤ, NearestEven (valueOf x * 10 ^ places) units ∧
        rounded places x = units / 10 ^ places ∧
        decimal? (tidy places x) = some (rounded places x)) ∧
      (∀ y : Float, y.isFinite = true →
        (tidy places x = tidy places y ↔ rounded places x = rounded places y)) ∧
      (∃ y, readNumber? (tidy places x) = some y ∧ Closest (rounded places x) y) ∧
      ∀ y, Closest (rounded places x) y → tidy places y = tidy places x :=
  ⟨canonical_tidy places x, ⟨_, nearestEven_spec _, rfl, decimal?_tidy places x⟩,
    fun _ _ => tidy_eq_iff, exists_closest_read places hx, fun _ hy => tidy_of_closest hx hy⟩

/-- `1.005` is a little less than that: two places are written as `1`, and read back as it -/
theorem tidy_canonical_hundredths : tidy 2 1.005 = "1" ∧ ∃ y, readNumber? (tidy 2 1.005) = some y ∧
    tidy 2 y = tidy 2 1.005 := by
  obtain ⟨-, -, -, ⟨y, hread, hclosest⟩, hstable⟩ := tidy_canonical 2 1.005 (by decide)
  exact ⟨by decide, y, hread, hstable y hclosest⟩

end Figures
