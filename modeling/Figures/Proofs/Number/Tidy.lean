import Figures.Proofs.Number.Decimal
import Figures.Proofs.Number.Fixed

/-!
# What rounded decimals denote

* `nearestEven q`      the whole number nearest to a rational, a half going to the even neighbour
* `valueOf x`          the exact value of a double; NaN and the infinities count as zero
* `decimal? s`         the number that a decimal denotes
* `rounded p x`        the decimal nearest to the exact value of a double
* `decimal?_tidy`      it is what the double denotes in markup
* `tidy_eq_iff`        two doubles look the same in markup if and only if they are rounded to the
                       same
-/

namespace Figures

/-! ### the nearest whole number -/

/-- the whole number nearest to `q`; a half goes to the even neighbour -/
def nearestEven (q : ℚ) : ℤ :=
  if 2 * (q - ⌊q⌋) < 1 then ⌊q⌋
  else if 1 < 2 * (q - ⌊q⌋) then ⌊q⌋ + 1
  else if ⌊q⌋ % 2 = 0 then ⌊q⌋ else ⌊q⌋ + 1

/-- `n` is nearest to `q`, and even if another number is as near -/
structure NearestEven (q : ℚ) (n : ℤ) : Prop where
  near : 2 * |q - n| ≤ 1
  tie : 2 * |q - n| = 1 → Even n

theorem nearestEven_spec (q : ℚ) : NearestEven q (nearestEven q) := by
  have hfloor : (0 : ℚ) ≤ q - ⌊q⌋ := sub_nonneg.mpr (Int.floor_le q)
  have hbelow : |q - ⌊q⌋| = q - ⌊q⌋ := abs_of_nonneg hfloor
  have habove : |q - ((⌊q⌋ + 1 : ℤ) : ℚ)| = 1 - (q - ⌊q⌋) := by
    rw [abs_sub_comm, abs_of_nonneg]
    · push_cast
      ring
    · push_cast
      linarith [Int.lt_floor_add_one q]
  rw [nearestEven]
  split_ifs with hlow hhigh heven
  · rw [← hbelow] at hlow
    exact ⟨hlow.le, fun h => absurd h hlow.ne⟩
  · have hlt : 2 * |q - ((⌊q⌋ + 1 : ℤ) : ℚ)| < 1 := by rw [habove]; linarith
    exact ⟨hlt.le, fun h => absurd h hlt.ne⟩
  · exact ⟨by rw [hbelow]; linarith, fun _ => Int.even_iff.mpr heven⟩
  · refine ⟨by rw [habove]; linarith, fun _ => Int.even_iff.mpr ?_⟩
    omega

namespace NearestEven

variable {q : ℚ} {m n : ℤ}

theorem unique (hm : NearestEven q m) (hn : NearestEven q n) : m = n := by
  obtain ⟨hm1, hm2⟩ := abs_le.mp ((le_div_iff₀' two_pos).mpr hm.near)
  obtain ⟨hn1, hn2⟩ := abs_le.mp ((le_div_iff₀' two_pos).mpr hn.near)
  have hmn : m ≤ n + 1 := by exact_mod_cast (show (m : ℚ) ≤ n + 1 by linarith)
  have hnm : n ≤ m + 1 := by exact_mod_cast (show (n : ℚ) ≤ m + 1 by linarith)
  -- of two neighbours that are both nearest, only one is even
  by_contra hne
  rcases (show m = n + 1 ∨ n = m + 1 by omega) with rfl | rfl
  · push_cast at hm1 hm2
    have hhalf : q - n = 1 / 2 := by linarith
    have heven := hn.tie (by rw [hhalf]; norm_num)
    have heven' := hm.tie (by push_cast; rw [← sub_sub, hhalf]; norm_num)
    rw [Int.even_iff] at heven heven'
    omega
  · push_cast at hn1 hn2
    have hhalf : q - m = 1 / 2 := by linarith
    have heven := hm.tie (by rw [hhalf]; norm_num)
    have heven' := hn.tie (by push_cast; rw [← sub_sub, hhalf]; norm_num)
    rw [Int.even_iff] at heven heven'
    omega

theorem eq (h : NearestEven q n) : nearestEven q = n := (nearestEven_spec q).unique h

theorem neg (h : NearestEven q n) : NearestEven (-q) (-n) := by
  have hdist : |-q - ((-n : ℤ) : ℚ)| = |q - n| := by
    rw [← abs_neg]
    congr 1
    push_cast
    ring
  exact ⟨hdist ▸ h.near, fun htie => (h.tie (hdist ▸ htie)).neg⟩

end NearestEven

theorem nearestEven_neg (q : ℚ) : nearestEven (-q) = -nearestEven q := (nearestEven_spec q).neg.eq

theorem nearestEven_eq_zero_iff {q : ℚ} : nearestEven q = 0 ↔ 2 * |q| ≤ 1 := by
  refine ⟨fun h => ?_, fun h => NearestEven.eq ⟨?_, fun _ => Even.zero⟩⟩
  · have hnear := (nearestEven_spec q).near
    rwa [h, Int.cast_zero, sub_zero] at hnear
  · rwa [Int.cast_zero, sub_zero]

theorem nearestEven_pos_iff {q : ℚ} : 0 < nearestEven q ↔ 1 < 2 * q := by
  obtain ⟨hlow, hhigh⟩ := abs_le.mp ((le_div_iff₀' two_pos).mpr (nearestEven_spec q).near)
  refine ⟨fun h => ?_, fun h => ?_⟩
  · have hone : (1 : ℚ) ≤ nearestEven q := by exact_mod_cast h
    refine lt_of_le_of_ne (by linarith) fun heq => ?_
    -- a half is as near to zero, which is even
    have hzero : nearestEven q = 0 := nearestEven_eq_zero_iff.mpr (by
      rw [abs_of_nonneg (by linarith)]
      exact heq.ge)
    omega
  · have hpos : (0 : ℚ) < nearestEven q := by linarith
    exact_mod_cast hpos

theorem nearestEven_intCast (n : ℤ) : nearestEven n = n := by
  refine NearestEven.eq ⟨?_, fun h => ?_⟩
  · rw [sub_self, abs_zero, mul_zero]
    exact zero_le_one
  · rw [sub_self, abs_zero, mul_zero] at h
    exact absurd h zero_ne_one

/-- a quotient of natural numbers is rounded without leaving them -/
theorem nearestEven_div (num : ℕ) {den : ℕ} (hden : 0 < den) :
    nearestEven (num / den) = halfEven num den := by
  have hpos : (0 : ℚ) < den := by exact_mod_cast hden
  have hrest : ((num % den : ℕ) : ℚ) < den := by exact_mod_cast Nat.mod_lt num hden
  have hsplit : (num : ℚ) = den * (num / den : ℕ) + (num % den : ℕ) := by
    exact_mod_cast (Nat.div_add_mod num den).symm
  rw [nearestEven, halfEven]
  generalize num / den = q at hsplit ⊢
  generalize num % den = r at hrest hsplit ⊢
  have hquotient : (num / den : ℚ) = q + r / den := by
    rw [hsplit, add_div, mul_div_cancel_left₀ _ hpos.ne']
  have hfloor : ⌊(num / den : ℚ)⌋ = q := by
    rw [hquotient, Int.floor_eq_iff, Int.cast_natCast]
    exact ⟨le_add_of_nonneg_right (by positivity), by linarith [(div_lt_one hpos).mpr hrest]⟩
  have htwice : 2 * ((num / den : ℚ) - (q : ℤ)) = (2 * r : ℕ) / den := by
    rw [hquotient, Int.cast_natCast, add_sub_cancel_left, Nat.cast_mul, Nat.cast_ofNat,
      mul_div_assoc]
  have hlow : 2 * ((num / den : ℚ) - (q : ℤ)) < 1 ↔ 2 * r < den := by
    rw [htwice, div_lt_one hpos, Nat.cast_lt]
  have hhigh : 1 < 2 * ((num / den : ℚ) - (q : ℤ)) ↔ den < 2 * r := by
    rw [htwice, one_lt_div hpos, Nat.cast_lt]
  simp only [hfloor, hlow, hhigh]
  split_ifs <;> omega

/-! ### decimals -/

/-- the number that digits denote, with perhaps a point and more digits behind them -/
def magnitude? (cs : List Char) : Option ℚ :=
  let whole := cs.takeWhile Char.isDigit
  if whole = [] then none
  else match cs.dropWhile Char.isDigit with
    | [] => some (digitsValue 0 whole)
    | c :: places =>
      if c = '.' ∧ places ≠ [] ∧ places.all Char.isDigit = true then
        some (digitsValue 0 (whole ++ places) / 10 ^ places.length)
      else none

/-- the number that a decimal denotes -/
def decimal? (s : String) : Option ℚ :=
  (magnitude? (splitSign s.toList).2).map fun x =>
    (if (splitSign s.toList).1 then -1 else 1) * x

theorem span_point {whole : List Char} (hwhole : whole.all Char.isDigit = true)
    (places : List Char) :
    (whole ++ '.' :: places).takeWhile Char.isDigit = whole ∧
      (whole ++ '.' :: places).dropWhile Char.isDigit = '.' :: places := by
  have hall := List.all_eq_true.mp hwhole
  rw [List.takeWhile_append_of_pos hall, List.dropWhile_append_of_pos hall,
    List.takeWhile_cons_of_neg (by decide), List.dropWhile_cons_of_neg (by decide), List.append_nil]
  exact ⟨rfl, rfl⟩

section
variable {whole places : List Char} (hne : whole ≠ []) (hwhole : whole.all Char.isDigit = true)
include hne hwhole

theorem magnitude?_digits : magnitude? whole = some (digitsValue 0 whole : ℚ) := by
  have hall := List.all_eq_true.mp hwhole
  rw [magnitude?, List.takeWhile_eq_self_iff.mpr hall, List.dropWhile_eq_nil_iff.mpr hall]
  exact if_neg hne

theorem magnitude?_point (hsome : places ≠ []) (hplaces : places.all Char.isDigit = true) :
    magnitude? (whole ++ '.' :: places)
      = some (digitsValue 0 (whole ++ places) / 10 ^ places.length : ℚ) := by
  obtain ⟨htake, hdrop⟩ := span_point hwhole places
  rw [magnitude?, htake, hdrop]
  exact (if_neg hne).trans (if_pos ⟨rfl, hsome, hplaces⟩)

end

namespace Fixed

def value (d : Fixed) : ℚ := (if d.negative then -1 else 1) * (d.units / 10 ^ d.places)

/-- a whole number of units of the last place -/
def ofInt (places : ℕ) (n : ℤ) : Fixed := ⟨decide (n < 0), n.natAbs, places⟩

theorem value_ofInt (places : ℕ) (n : ℤ) : (ofInt places n).value = n / 10 ^ places := by
  rw [value, ofInt, ← mul_div_assoc]
  congr 1
  rcases lt_or_ge n 0 with hneg | hnonneg
  · have habs : ((n.natAbs : ℕ) : ℚ) = -n := by
      rw [Nat.cast_natAbs, abs_of_neg hneg, Int.cast_neg]
    rw [decide_eq_true hneg, if_pos rfl, habs]
    ring
  · have habs : ((n.natAbs : ℕ) : ℚ) = n := by
      rw [Nat.cast_natAbs, abs_of_nonneg hnonneg]
    rw [decide_eq_false (not_lt.mpr hnonneg), if_neg Bool.false_ne_true, habs, one_mul]

theorem round_eq (places : ℕ) (b : Binary) :
    round places b = ofInt places (nearestEven (b.value * 10 ^ places)) := by
  have hmagnitude : nearestEven (b.significand * 2 ^ b.exponent * 10 ^ places)
      = halfEven ((Binary.fraction b.significand b.exponent).1 * powerOfTen places)
        (Binary.fraction b.significand b.exponent).2 := by
    rw [← nearestEven_div _ (Binary.fraction_pos _ _), ← Binary.fraction_div]
    rw [powerOfTen, Nat.pow_eq, Nat.cast_mul, Nat.cast_pow, Nat.cast_ofNat, div_mul_eq_mul_div]
  rw [round, Binary.value]
  dsimp only
  cases hsign : b.negative with
  | false =>
    rw [if_neg Bool.false_ne_true, one_mul, hmagnitude, Bool.false_and, ofInt,
      decide_eq_false (by omega), Int.natAbs_natCast]
  | true =>
    rw [if_pos rfl, neg_one_mul, neg_mul, nearestEven_neg, hmagnitude, Bool.true_and, ofInt,
      Int.natAbs_neg, Int.natAbs_natCast]
    congr 1
    rw [Bool.eq_iff_iff, bne_iff_ne, decide_eq_true_iff]
    omega

theorem value_shortenAux (negative : Bool) (units places : ℕ) :
    (shortenAux negative units places).value = (⟨negative, units, places⟩ : Fixed).value := by
  induction places generalizing units with
  | zero => rfl
  | succ p ih =>
    rw [shortenAux]
    split_ifs with hzero
    · have hunits : (units : ℚ) = (units / 10 : ℕ) * 10 := by
        exact_mod_cast (show units = units / 10 * 10 by omega)
      rw [ih, value, value, hunits, pow_succ, mul_div_mul_right _ _ (by norm_num)]
    · rfl

@[simp] theorem value_shorten (d : Fixed) : d.shorten.value = d.value :=
  value_shortenAux d.negative d.units d.places

/-! ### texts of decimals -/

theorem lastDigits_append (n width : ℕ) (acc : List Char) :
    lastDigits n width acc = lastDigits n width [] ++ acc := by
  induction width generalizing n acc with
  | zero => rfl
  | succ w ih =>
    rw [lastDigits, lastDigits, ih, ih _ [_], List.append_assoc]
    rfl

theorem length_lastDigits (n width : ℕ) : (lastDigits n width []).length = width := by
  induction width generalizing n with
  | zero => rfl
  | succ w ih => rw [lastDigits, lastDigits_append, List.length_append, ih, List.length_singleton]

theorem isDigit_lastDigits (n width : ℕ) : (lastDigits n width []).all Char.isDigit = true := by
  induction width generalizing n with
  | zero => rfl
  | succ w ih =>
    rw [lastDigits, lastDigits_append, List.all_append, ih, List.all_cons, List.all_nil,
      Nat.isDigit_digitChar, decide_eq_true (Nat.mod_lt n (by decide))]
    rfl

theorem digitsValue_lastDigits (acc n width : ℕ) :
    digitsValue acc (lastDigits n width []) = acc * 10 ^ width + n % 10 ^ width := by
  have hdigit : ∀ d < 10, (Nat.digitChar d).toNat - '0'.toNat = d := by decide
  induction width generalizing n with
  | zero => simp [lastDigits, digitsValue, Nat.mod_one]
  | succ w ih =>
    rw [lastDigits, lastDigits_append, digitsValue, List.foldl_append]
    show 10 * digitsValue acc (lastDigits (n / 10) w []) + (_ - _) = _
    rw [ih, hdigit _ (Nat.mod_lt n (by decide)), Nat.pow_succ, Nat.mul_comm (10 ^ w) 10,
      Nat.mod_mul]
    ring

theorem toList_text (d : Fixed) : d.text.toList =
    (if d.negative then ['-'] else []) ++ (Nat.repr (d.units / powerOfTen d.places)).toList ++
      if d.places = 0 then [] else '.' :: lastDigits d.units d.places [] := by
  rw [text]
  split_ifs <;> simp_all

theorem digitsValue_text (d : Fixed) : digitsValue 0
    ((Nat.repr (d.units / powerOfTen d.places)).toList ++ lastDigits d.units d.places [])
      = d.units := by
  have hwhole := digitsValue_repr (d.units / powerOfTen d.places)
  rw [digitsValue] at hwhole
  rw [digitsValue, List.foldl_append, hwhole]
  show digitsValue _ (lastDigits d.units d.places []) = _
  rw [digitsValue_lastDigits]
  exact Nat.div_add_mod' d.units (10 ^ d.places)

end Fixed

theorem splitSign_sign (negative : Bool) {cs : List Char} (hne : cs ≠ [])
    (hdigit : ∀ c, cs.head? = some c → c.isDigit = true) :
    splitSign ((if negative then ['-'] else []) ++ cs) = (negative, cs) := by
  cases negative with
  | true => rfl
  | false =>
    obtain ⟨c, rest, rfl⟩ := List.exists_cons_of_ne_nil hne
    have hc := hdigit c rfl
    have hminus : c ≠ '-' := fun h => absurd (h ▸ hc) (by decide)
    have hplus : c ≠ '+' := fun h => absurd (h ▸ hc) (by decide)
    simp [splitSign, hminus, hplus]

theorem Fixed.decimal?_text (d : Fixed) : decimal? d.text = some d.value := by
  have hdigits := repr_digits (d.units / powerOfTen d.places)
  have hne := repr_ne_nil (d.units / powerOfTen d.places)
  have hunits := d.digitsValue_text
  have htext := d.toList_text
  generalize (Nat.repr (d.units / powerOfTen d.places)).toList = whole at hdigits hne hunits htext
  have hhead : ∀ rest c, (whole ++ rest).head? = some c → c.isDigit = true := by
    intro rest c hc
    obtain ⟨w, ws, rfl⟩ := List.exists_cons_of_ne_nil hne
    exact Option.some.inj hc ▸ List.all_eq_true.mp hdigits w List.mem_cons_self
  rw [List.append_assoc] at htext
  rw [decimal?, htext, splitSign_sign _ (List.append_ne_nil_of_left_ne_nil hne _) (hhead _), value]
  dsimp only
  by_cases hplaces : d.places = 0
  · rw [hplaces] at hunits
    rw [if_pos hplaces, List.append_nil, magnitude?_digits hne hdigits, hplaces, ← hunits]
    simp [lastDigits]
  · have hlength := length_lastDigits d.units d.places
    have hsome : lastDigits d.units d.places [] ≠ [] := by
      intro h
      rw [h] at hlength
      exact hplaces hlength.symm
    rw [if_neg hplaces, magnitude?_point hne hdigits hsome (isDigit_lastDigits _ _),
      hunits, hlength]
    rfl

/-! ### doubles in markup -/

/-- the exact value of a double; NaN and the infinities count as zero -/
def valueOf (x : Float) : ℚ := ((Binary.ofFloat? x).map Binary.value).getD 0

/-- a double, rounded to a whole number of units of its last place -/
def unitsOf (places : ℕ) (x : Float) : ℤ := nearestEven (valueOf x * 10 ^ places)

theorem tidy_eq (places : ℕ) (x : Float) :
    tidy places x = (Fixed.ofInt places (unitsOf places x)).shorten.text := by
  rw [tidy_standard, unitsOf, valueOf]
  cases Binary.ofFloat? x with
  | some b =>
    dsimp only
    rw [Fixed.round_eq]
    rfl
  | none =>
    have hzero : (Fixed.ofInt places 0).shorten = ⟨false, 0, 0⟩ := by
      show Fixed.shortenAux false 0 places = _
      induction places with
      | zero => rfl
      | succ p ih => exact ih
    have hunits : nearestEven ((Option.map Binary.value none).getD 0 * 10 ^ places) = 0 := by
      rw [Option.map_none, Option.getD_none, zero_mul]
      exact nearestEven_intCast 0
    dsimp only
    rw [hunits, hzero]
    rfl

/-- a double, rounded to the nearest decimal -/
def rounded (places : ℕ) (x : Float) : ℚ := unitsOf places x / 10 ^ places

theorem decimal?_tidy (places : ℕ) (x : Float) :
    decimal? (tidy places x) = some (rounded places x) := by
  rw [tidy_eq, Fixed.decimal?_text, Fixed.value_shorten, Fixed.value_ofInt, rounded]

theorem tidy_ne_empty (places : ℕ) (x : Float) : tidy places x ≠ "" := by
  intro h
  have hread := decimal?_tidy places x
  have hnone : decimal? "" = none := by decide
  rw [h, hnone] at hread
  cases hread

theorem rounded_eq_zero_iff {places : ℕ} {x : Float} :
    rounded places x = 0 ↔ 2 * |valueOf x| * 10 ^ places ≤ 1 := by
  have hunit : (0 : ℚ) < 10 ^ places := by positivity
  rw [rounded, div_eq_zero_iff, or_iff_left hunit.ne', Int.cast_eq_zero, unitsOf,
    nearestEven_eq_zero_iff, abs_mul, abs_of_pos hunit, mul_assoc]

theorem rounded_pos_iff {places : ℕ} {x : Float} :
    0 < rounded places x ↔ 1 < 2 * valueOf x * 10 ^ places := by
  have hunit : (0 : ℚ) < 10 ^ places := by positivity
  rw [rounded, div_pos_iff_of_pos_right hunit, Int.cast_pos, unitsOf,
    nearestEven_pos_iff, mul_assoc]

theorem tidy_eq_iff {places : ℕ} {x y : Float} :
    tidy places x = tidy places y ↔ rounded places x = rounded places y := by
  refine ⟨fun h => ?_, fun h => ?_⟩
  · exact Option.some.inj ((decimal?_tidy places x).symm.trans (h ▸ decimal?_tidy places y))
  · rw [rounded, rounded, div_left_inj' (by positivity)] at h
    have hunits : unitsOf places x = unitsOf places y := by exact_mod_cast h
    rw [tidy_eq, tidy_eq, hunits]

end Figures
