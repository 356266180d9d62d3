import Figures.Plane.Fit
import Figures.Proofs.Plane.Within

/-!
# Models on a canvas

* `exists_extreme`         what is picked from some numbers, one after another, is one of them
* `exists_ends`            the smallest and the largest of some numbers are among them
* `finite_room`            how often a span fits in some room
* `Point.Within.fitting`   the points of a model are placed within bounds if their differences are
                           finite
* `Point.isFinite_of_fitting`   what is not finite is not placed
-/

namespace Figures

open Binary

/-- what is picked from each two numbers of a list, one after another, is one of them and comes
before all of them -/
theorem exists_extreme {α : Type} (pick : Float → Float → Float) (R : Float → Float → Prop)
    (hpick : ∀ x y, pick x y = x ∨ pick x y = y)
    (hleft : ∀ x y, x.isNaN = false → R (pick x y) x) (hright : ∀ x y, y.isNaN = false →
      R (pick x y) y)
    (hrefl : ∀ x, x.isNaN = false → R x x) (htrans : ∀ {x y z}, R x y → R y z → R x z)
    {f : α → Float} {a : α} {rest : List α} (h : ∀ b ∈ a :: rest, (f b).isNaN = false) :
    ∃ b ∈ a :: rest, rest.foldl (fun m c => pick m (f c)) (f a) = f b ∧
      ∀ c ∈ a :: rest, R (f b) (f c) := by
  induction rest generalizing a with
  | nil =>
    have ha := h a List.mem_cons_self
    exact ⟨a, List.mem_cons_self, rfl, List.forall_mem_singleton.mpr (hrefl _ ha)⟩
  | cons c rest ih =>
    have ha := h a List.mem_cons_self
    have hc := h c (List.mem_cons_of_mem a List.mem_cons_self)
    have hrest := fun b hb => h b (List.mem_cons_of_mem a (List.mem_cons_of_mem c hb))
    rw [List.foldl_cons]
    rcases hpick (f a) (f c) with heq | heq
    · have hac := hright (f a) (f c) hc
      rw [heq] at hac ⊢
      obtain ⟨b, hb, hfold, hall⟩ := ih (List.forall_mem_cons.mpr ⟨ha, hrest⟩)
      rw [List.forall_mem_cons] at hall
      refine ⟨b, ?_, hfold, List.forall_mem_cons.mpr ⟨hall.1,
        List.forall_mem_cons.mpr ⟨htrans hall.1 hac, hall.2⟩⟩⟩
      exact (List.mem_cons.mp hb).elim (fun h => h ▸ List.mem_cons_self)
        fun h => List.mem_cons_of_mem a (List.mem_cons_of_mem c h)
    · have hca := hleft (f a) (f c) ha
      rw [heq] at hca ⊢
      obtain ⟨b, hb, hfold, hall⟩ := ih (List.forall_mem_cons.mpr ⟨hc, hrest⟩)
      exact ⟨b, List.mem_cons_of_mem a hb, hfold,
        List.forall_mem_cons.mpr ⟨htrans (hall c List.mem_cons_self) hca, hall⟩⟩

theorem exists_ends {α : Type} {f : α → Float} {a : α} {rest : List α}
    (h : ∀ b ∈ a :: rest, (f b).isFinite = true) :
    ∃ lo ∈ a :: rest, ∃ hi ∈ a :: rest, rest.foldl (fun m c => lesser m (f c)) (f a) = f lo ∧
      rest.foldl (fun m c => greater m (f c)) (f a) = f hi ∧ ∀ c ∈ a :: rest, f lo ≤ f c ∧
      f c ≤ f hi := by
  have hnumber : ∀ b ∈ a :: rest, (f b).isNaN = false := fun b hb => isNaN_of_isFinite (h b hb)
  obtain ⟨lo, hlo, hleast, hlow⟩ := exists_extreme lesser (· ≤ ·) lesser_cases
    (fun _ _ => lesser_le_left) (fun _ _ => lesser_le_right) (fun _ => le_self)
      float_le_trans hnumber
  obtain ⟨hi, hhi, hgreatest, hhigh⟩ := exists_extreme greater (fun x y => y ≤ x) greater_cases
    (fun _ _ => left_le_greater) (fun _ _ => right_le_greater) (fun _ => le_self)
    (fun h h' => float_le_trans h' h) hnumber
  exact ⟨lo, hlo, hi, hhi, hleast, hgreatest, fun c hc => ⟨hlow c hc, hhigh c hc⟩⟩

section
variable {k s x y : Float}

/-- a span is counted as no less than the distance between doubles next to one -/
theorem finite_room (hk : Within 1000 k) (hnonneg : 0 ≤ valueOf k) (hs : s.isFinite = true)
    (hle : epsilon ≤ s) :
    (k / s).isFinite = true ∧ 0 ≤ valueOf (k / s) := by
  obtain ⟨hkfinite, hkle⟩ := hk (by decide)
  have hepsilon : valueOf epsilon = 1 / 2 ^ 52 := by
    have hexact : ofFloat? epsilon = some ⟨false, 4503599627370496, -104⟩ := by decide
    rw [valueOf, hexact]
    norm_num [Binary.value]
  rw [le_iff_valueOf (by decide) hs, hepsilon] at hle
  have hpos : 0 < valueOf s := lt_of_lt_of_le (by positivity) hle
  have hrounds := roundsTo_div hkfinite hs hpos.ne'
  have hfinite : (k / s).isFinite = true := by
    rw [hrounds.isFinite_iff, abs_div, abs_of_pos hpos, div_lt_iff₀ hpos]
    have hlimit : (2 : ℚ) ^ 100 ≤ doubleLimit := by
      have hdouble : (2 : ℚ) ^ (1024 : ℤ) = 2 * 2 ^ (1023 : ℤ) := by
        rw [← zpow_one_add₀ two_ne_zero]
        rfl
      have hhalf : (2 : ℚ) ^ (970 : ℤ) ≤ 2 ^ (1023 : ℤ) :=
        zpow_le_zpow_right₀ one_le_two (by decide)
      have hpower : (2 : ℚ) ^ 100 ≤ 2 ^ (1023 : ℤ) := by
        rw [← zpow_natCast]
        exact zpow_le_zpow_right₀ one_le_two (by decide)
      rw [doubleLimit, hdouble, two_mul]
      exact hpower.trans (le_add_of_nonneg_right (sub_nonneg.mpr hhalf)) |>.trans_eq
        (add_sub_assoc _ _ _).symm
    calc |valueOf k| ≤ 1000 := by exact_mod_cast hkle
      _ < 2 ^ 100 * (1 / 2 ^ 52) := by norm_num
      _ ≤ doubleLimit * valueOf s := mul_le_mul hlimit hle (by positivity) doubleLimit_pos.le
  exact ⟨hfinite, hrounds.nonneg hfinite (div_nonneg hnonneg hpos.le)⟩

/-- the difference of two numbers that are not negative -/
theorem isFinite_sub_of_nonneg (hx : x.isFinite = true) (hy : y.isFinite = true)
    (hxpos : 0 ≤ valueOf x) (hypos : 0 ≤ valueOf y) : (x - y).isFinite = true := by
  have hxlimit := (le_abs_self _).trans_lt (abs_valueOf_lt hx)
  have hylimit := (le_abs_self _).trans_lt (abs_valueOf_lt hy)
  rw [(roundsTo_sub hx hy).isFinite_iff, abs_lt]
  exact ⟨by linarith, by linarith⟩

theorem isFinite_greater (hx : x.isFinite = true) (hy : y.isFinite = true) :
    (greater x y).isFinite = true := by
  rcases greater_cases x y with h | h <;> rwa [h]

theorem finite_lesser (hx : x.isFinite = true ∧ 0 ≤ valueOf x)
    (hy : y.isFinite = true ∧ 0 ≤ valueOf y) :
    (lesser x y).isFinite = true ∧ 0 ≤ valueOf (lesser x y) := by
  rcases lesser_cases x y with h | h <;> rwa [h]

theorem sub_nonneg_of_le (hx : x.isFinite = true) (hy : y.isFinite = true) (hle : y ≤ x)
    (h : (x - y).isFinite = true) : 0 ≤ valueOf (x - y) :=
  (roundsTo_sub hx hy).nonneg h (sub_nonneg.mpr ((le_iff_valueOf hy hx).mp hle))

end

theorem Within.of_room {x : Float} (h : 0.0 ≤ x ∧ x ≤ 1000.0) : Within 1000 x ∧ 0 ≤ valueOf x := by
  have hx : Within 1000 x :=
    .of_bounds ⟨float_le_trans (by decide : -1000.0 ≤ (0.0 : Float)) h.1, h.2⟩
  have hzero : valueOf 0.0 = 0 := (beq_zero_iff (by decide)).mp (by decide)
  exact ⟨hx, hzero ▸ (le_iff_valueOf (by decide) (hx.isFinite (by decide))).mp h.1⟩

/-- along either axis, what lies between the ends of a model is scaled to at most the room for it -/
theorem Within.spread {k lo hi x scale : Float} (hk : Within 1000 k) (hlo : lo.isFinite = true)
    (hhi : hi.isFinite = true) (hx : x.isFinite = true) (hspan : (hi - lo).isFinite = true)
    (hfinite : (x - lo).isFinite = true)
    (hlow : lo ≤ x) (hhigh : x ≤ hi) (hscale : scale.isFinite = true) (hnonneg : 0 ≤ valueOf scale)
    (hle : scale ≤ k / Figures.greater (hi - lo) epsilon) :
    Within 2001 ((x - lo) * scale) ∧ Within 2001 (Figures.greater (hi - lo) epsilon * scale) := by
  have hwhole := isFinite_greater hspan (by decide : epsilon.isFinite = true)
  have hspanle := left_le_greater (y := epsilon) (isNaN_of_isFinite hspan)
  have horder := (le_iff_valueOf hx hhi).mp hhigh
  have hpart := (roundsTo_sub hx hlo).le (roundsTo_sub hhi hlo)
    (sub_nonneg.mpr ((le_iff_valueOf hlo hx).mp hlow)) (sub_le_sub_right horder _)
  have hpos := sub_nonneg_of_le hx hlo hlow hfinite
  constructor
  · exact hk.scaled hfinite hpos (float_le_trans hpart hspanle) hscale hnonneg hle
  · have hvalue := (le_iff_valueOf hfinite hwhole).mp (float_le_trans hpart hspanle)
    exact hk.scaled hwhole (hpos.trans hvalue) (le_self (isNaN_of_isFinite hwhole))
      hscale hnonneg hle

theorem Point.Within.fitting {width height margin : Float} {p : Point} {rest : List Point}
    (hcanvas : (-1000.0 ≤ width ∧ width ≤ 1000.0) ∧ -1000.0 ≤ height ∧ height ≤ 1000.0)
    (hroom : (0.0 ≤ width - 2 * margin ∧ width - 2 * margin ≤ 1000.0) ∧
      0.0 ≤ height - 2 * margin ∧ height - 2 * margin ≤ 1000.0)
    (hpoints : ∀ q ∈ p :: rest, q.isFinite = true)
    (hspans : ∀ q ∈ p :: rest, ∀ r ∈ p :: rest, (q.x - r.x).isFinite = true ∧
      (q.y - r.y).isFinite = true) :
    ∀ q ∈ p :: rest, Point.Within 10000 (Figures.fitting epsilon width height margin p rest q) := by
  have hwidth : Figures.Within 1000 width := .of_bounds hcanvas.1
  have hheight : Figures.Within 1000 height := .of_bounds hcanvas.2
  have hroomX := Figures.Within.of_room hroom.1
  have hroomY := Figures.Within.of_room hroom.2
  have hx : ∀ q ∈ p :: rest, q.x.isFinite = true := fun q hq =>
    (Point.isFinite_iff.mp (hpoints q hq)).1
  have hy : ∀ q ∈ p :: rest, q.y.isFinite = true := fun q hq =>
    (Point.isFinite_iff.mp (hpoints q hq)).2
  intro q hq
  obtain ⟨left, hleft, right, hright, hminX, hmaxX, hbetweenX⟩ := exists_ends hx
  obtain ⟨below, hbelow, above, habove, hminY, hmaxY, hbetweenY⟩ := exists_ends hy
  have hepsilon : epsilon.isFinite = true := by decide
  have hspanX := (hspans right hright left hleft).1
  have hspanY := (hspans above habove below hbelow).2
  have hfitX := finite_room hroomX.1 hroomX.2 (isFinite_greater hspanX hepsilon)
    (right_le_greater (isNaN_of_isFinite hepsilon))
  have hfitY := finite_room hroomY.1 hroomY.2 (isFinite_greater hspanY hepsilon)
    (right_le_greater (isNaN_of_isFinite hepsilon))
  set scale := lesser ((width - 2 * margin) / greater (right.x - left.x) epsilon)
    ((height - 2 * margin) / greater (above.y - below.y) epsilon) with hscale
  have hscaled : scale.isFinite = true ∧ 0 ≤ valueOf scale := finite_lesser hfitX hfitY
  obtain ⟨hpartX, hallX⟩ := hroomX.1.spread (hx left hleft) (hx right hright) (hx q hq) hspanX
    (hspans q hq left hleft).1 (hbetweenX q hq).1 (hbetweenX q hq).2 hscaled.1 hscaled.2
    (lesser_le_left (isNaN_of_isFinite hfitX.1))
  obtain ⟨hpartY, hallY⟩ := hroomY.1.spread (hy below hbelow) (hy above habove) (hy q hq) hspanY
    (hspans q hq below hbelow).2 (hbetweenY q hq).1 (hbetweenY q hq).2 hscaled.1 hscaled.2
    (lesser_le_right (isNaN_of_isFinite hfitY.1))
  have hform : Figures.fitting epsilon width height margin p rest q =
      ⟨(width - greater (right.x - left.x) epsilon * scale) / 2 + (q.x - left.x) * scale,
        height - (height - greater (above.y - below.y) epsilon * scale) / 2
          - (q.y - below.y) * scale⟩ := by
    rw [hscale, ← hminX, ← hmaxX, ← hminY, ← hmaxY]
    rfl
  rw [hform]
  exact ⟨((hwidth.sub hallX).half.add hpartX).mono (by omega),
    ((hheight.sub (hheight.sub hallY).half).sub hpartY).mono (by omega)⟩

theorem Point.isFinite_of_fitting {tiny width height margin : Float} {p q : Point}
    {rest : List Point}
    (h : Point.isFinite (Figures.fitting tiny width height margin p rest q) = true) :
      q.isFinite = true := by
  obtain ⟨hx, hy⟩ := Point.isFinite_iff.mp h
  exact Point.isFinite_of (finite_of_sub (finite_of_mul (finite_of_add hx).2).1).1
    (finite_of_sub (finite_of_mul (finite_of_sub hy).2).1).1

end Figures
