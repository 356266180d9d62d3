import Figures.Plane.Mark
import Figures.Proofs.Number.Scaled
import Figures.Proofs.Sheet.Steady

/-!
# Bounds of points

* `Point.Within n p`           both coordinates of `p` are within the bound `n`
* `Point.Within.lerp`, …       points made of such points are within bounds
* `Path.finite_rightAngle`, …  the numbers of a mark on a figure are finite
* `AngleArc.sized_between`     so are those of an arc
-/

namespace Figures

open Binary

structure Point.Within (n : ℕ) (p : Point) : Prop where
  x : Figures.Within n p.x
  y : Figures.Within n p.y

namespace Point

variable {m n k : ℕ} {p q : Point}

theorem isFinite_of {p : Point} (hx : p.x.isFinite = true) (hy : p.y.isFinite = true) :
    p.isFinite = true := by
  rw [Point.isFinite, hx, hy]
  rfl

namespace Within

theorem isFinite (h : p.Within n) (hn : n < 2 * hiddenBit) : p.isFinite = true :=
  isFinite_of (h.x.isFinite hn) (h.y.isFinite hn)

theorem mk' {x y : Float} (hx : Figures.Within m x) (hy : Figures.Within n y) :
    Point.Within (m + n) ⟨x, y⟩ := ⟨hx.mono (Nat.le_add_right m n), hy.mono (Nat.le_add_left n m)⟩

theorem mono (h : p.Within m) (hmn : m ≤ n) : p.Within n := ⟨h.x.mono hmn, h.y.mono hmn⟩

theorem of_bounds (h : (-1000.0 ≤ p.x ∧ p.x ≤ 1000.0) ∧ -1000.0 ≤ p.y ∧ p.y ≤ 1000.0) :
    p.Within 1000 :=
  ⟨.of_bounds h.1, .of_bounds h.2⟩

theorem origin : Point.origin.Within 1000 :=
  ⟨.of_bounds (by decide), .of_bounds (by decide)⟩

theorem shift (h : p.Within n) {dx dy : Float} (hx : Figures.Within m dx)
    (hy : Figures.Within m dy) :
    (p.shift dx dy).Within (n + m) := ⟨h.x.add hx, h.y.add hy⟩

theorem lerp (hp : p.Within m) (hq : q.Within n) {t : Float} (ht : Figures.Within k t) :
    (Point.lerp p q t).Within (m + (n + m + 1) * (k + 1)) :=
  ⟨hp.x.add ((hq.x.sub hp.x).mul ht), hp.y.add ((hq.y.sub hp.y).mul ht)⟩

theorem midpoint (hp : p.Within m) (hq : q.Within n) :
    (Point.midpoint p q).Within (m + (n + m + 1) * 1001) :=
  hp.lerp hq (.of_bounds (by decide))

section
variable [Platform] [Platform.Sound]

theorem distance (hp : p.Within m) (hq : q.Within n) :
    Figures.Within (4 * (n + m)) (Point.distance p q) :=
  ((hq.x.sub hp.x).hypotenuse (hq.y.sub hp.y)).mono (by omega)

theorem direction (hp : p.Within m) (hq : q.Within n) : Figures.Within (1000 + n + m)
    (Point.direction p q) := by
  intro hsmall
  refine (Figures.Within.bearing ?_ ?_).mono (by omega) hsmall
  · exact (hq.y.sub hp.y).isFinite (by omega)
  · exact (hq.x.sub hp.x).isFinite (by omega)

theorem polar (hp : p.Within m) {r theta : Float} (hr : Figures.Within n r)
    (ht : Figures.Within k theta) :
    (Point.polar p r theta).Within (m + (n + 1) * 1001 + k) := by
  have hpart : ∀ {z : Float}, Figures.Within 1000 z →
      Figures.Within ((n + 1) * 1001) (r * z) := fun hz => hr.mul hz
  constructor
  · intro hsmall
    exact (hp.x.add (hpart (.cosine (ht.isFinite (by omega))))).mono (by omega) hsmall
  · intro hsmall
    exact (hp.y.add (hpart (.sine (ht.isFinite (by omega))))).mono (by omega) hsmall

theorem unit {x y : Float} (hx : Figures.Within m x) (hy : Figures.Within n y)
    (hlen : ¬ hypotenuse x y == 0.0) :
    Figures.Within (1 + 2 * (m + n)) (x / hypotenuse x y) ∧
      Figures.Within (1 + 2 * (m + n)) (y / hypotenuse x y) ∧
      Figures.Within (1 + 2 * (m + n)) (-y / hypotenuse x y) := by
  have hparts : 2 * (m + n) < 2 * hiddenBit →
      Figures.Within 1 (x / hypotenuse x y) ∧ Figures.Within 1 (y / hypotenuse x y) ∧
        Figures.Within 1 (-y / hypotenuse x y) := by
    intro hsmall
    have hxfinite := hx.isFinite (by omega)
    have hyfinite := hy.isFinite (by omega)
    have hfinite := (hx.hypotenuse hy).isFinite (by omega)
    have hne : valueOf (hypotenuse x y) ≠ 0 := fun hzero => hlen ((beq_zero_iff hfinite).mpr hzero)
    obtain ⟨hxle, hyle⟩ := legs_le_hypotenuse hxfinite hyfinite hfinite
    obtain ⟨hneg, hnegle⟩ := abs_valueOf_neg_le hyfinite
    exact ⟨.ratio hxfinite hfinite hne (hxle.trans (le_abs_self _)),
      .ratio hyfinite hfinite hne (hyle.trans (le_abs_self _)),
      .ratio hneg hfinite hne (hnegle.trans (hyle.trans (le_abs_self _)))⟩
  refine ⟨fun h => ?_, fun h => ?_, fun h => ?_⟩
  · exact (hparts (by omega)).1.mono (by omega) h
  · exact (hparts (by omega)).2.1.mono (by omega) h
  · exact (hparts (by omega)).2.2.mono (by omega) h

theorem normal (hp : p.Within m) (hq : q.Within n) : (Point.normal p q).Within
    (1001 + 4 * (n + m)) := by
  unfold Point.normal
  dsimp only
  split
  · exact origin.mono (by omega)
  · rename_i hlen
    obtain ⟨hx, -, hy⟩ := unit (hq.x.sub hp.x) (hq.y.sub hp.y) hlen
    exact ⟨hy.mono (by omega), hx.mono (by omega)⟩

theorem outward (hp : p.Within m) (hq : q.Within n) {d : Float} (hd : Figures.Within k d) :
    (p.outward q d).Within (m + k + (4 * (m + n) + 2) * (k + 1)) := by
  unfold Point.outward
  dsimp only
  split
  · exact ⟨hp.x.mono (by omega), (hp.y.sub hd).mono (by omega)⟩
  · rename_i hlen
    obtain ⟨hx, hy, -⟩ := unit (hp.x.sub hq.x) (hp.y.sub hq.y) hlen
    have hbound : (1 + 2 * (m + n + (m + n)) + 1) * (k + 1) = (4 * (m + n) + 2) * (k + 1) := by ring
    exact ⟨(hp.x.add (hx.mul hd)).mono (by omega), (hp.y.add (hy.mul hd)).mono (by omega)⟩

end

theorem oblique (hp : p.Within m) {d : Float} (hd : Figures.Within k d) :
    (p.oblique d).Within (m + (k + 1) * 1001) := by
  have hstep : Figures.Within 1000 obliqueStep := .of_bounds (by decide)
  exact ⟨hp.x.add (hd.mul hstep), hp.y.sub (hd.mul hstep)⟩

theorem foldl_add {f : Point → Float} {points : List Point}
    (h : ∀ p ∈ points, Figures.Within n (f p)) {a : Float} (ha : Figures.Within k a) :
    Figures.Within (k + n * points.length) (points.foldl (fun s p => s + f p) a) := by
  induction points generalizing a k with
  | nil => exact ha
  | cons p rest ih =>
    refine (ih (fun q hq => h q (List.mem_cons_of_mem p hq))
      (ha.add (h p List.mem_cons_self))).mono ?_
    rw [List.length_cons, Nat.mul_succ]
    omega

theorem centroid {points : List Point} (hne : points ≠ []) (h : ∀ p ∈ points, p.Within n) :
    (Point.centroid points).Within (1000 + (n + 1) * points.length) := by
  obtain ⟨p, rest, rfl⟩ := List.exists_cons_of_ne_nil hne
  have hzero : Figures.Within 1000 0.0 := .of_bounds (by decide)
  have hmean : ∀ {f : Point → Float}, (∀ q ∈ p :: rest, Figures.Within n (f q)) →
      Figures.Within (1000 + (n + 1) * (p :: rest).length)
        ((p :: rest).foldl (fun s q => s + f q) 0.0 / Float.ofNat (p :: rest).length) := by
    intro f hf hsmall
    rw [Nat.succ_mul] at hsmall
    obtain ⟨hfinite, hvalue⟩ := valueOf_ofNat (show (p :: rest).length < 2 * hiddenBit by omega)
    refine (((foldl_add hf hzero).div hfinite ?_).mono (by rw [Nat.succ_mul]; omega))
      (by rw [Nat.succ_mul]; omega)
    rw [hvalue, Nat.abs_cast]
    exact_mod_cast Nat.succ_le_succ (Nat.zero_le _)
  exact ⟨hmean fun q hq => (h q hq).x, hmean fun q hq => (h q hq).y⟩

end Within

end Point

theorem Within.normalizeAngle {n : ℕ} {x : Float} (hx : Figures.Within n x) :
    Figures.Within (n + 1000) (normalizeAngle x) := by
  have hturn : Figures.Within 1000 (pi + pi) := .of_bounds (by decide)
  have hrest : Figures.Within n (Figures.remainder x (pi + pi)) := by
    obtain ⟨b, hb⟩ := exists_ofFloat?_of_isFinite (by decide : (pi + pi).isFinite = true)
    refine hx.remainder hb fun hzero => ?_
    have hnone : (ofFloat? (pi + pi)).map Binary.significand = some 0 := by
      rw [hb, Option.map_some, hzero]
    exact absurd hnone (by decide)
  unfold Figures.normalizeAngle Figures.wrap
  dsimp only
  split
  · exact hrest.sub hturn
  · split
    · exact hrest.add hturn
    · exact hrest.mono (Nat.le_add_right n 1000)

/-! ### marks on figures

The marks are made of points near a canvas, and lengths of a few units. -/

section
variable [Platform] [Platform.Sound] {n : ℕ} {a b vertex p q : Point}

theorem Pen.finite_sideSpot {inside : Point} (ha : a.Within n) (hb : b.Within n)
    (hn : n ≤ 100000000) :
    (sideSpot a b inside).isFinite = true := by
  have hfar : Figures.Within 1000 18.0 := .of_bounds (by decide)
  have hsign : ∀ c : Prop, [Decidable c] → Figures.Within 1000 (if c then -1.0 else 1.0) := by
    intro c _
    split
    · exact .of_bounds (by decide)
    · exact .of_bounds (by decide)
  have hmid := ha.midpoint hb
  have hnormal := ha.normal hb
  refine Point.isFinite_of ((hmid.x.add ((hnormal.x.mul hfar).mul (hsign _))).isFinite ?_)
    ((hmid.y.add ((hnormal.y.mul hfar).mul (hsign _))).isFinite ?_) <;>
  · rw [hiddenBit]
    omega

theorem Path.finite_rightAngle (hv : vertex.Within n) (hp : p.Within n) (hq : q.Within n) {k : ℕ}
    {size : Float} (hsize : Figures.Within k size) (hn : n ≤ 100000000) (hk : k ≤ 1000000) :
    ∀ s ∈ rightAngle vertex p q size, s.isFinite = true := by
  have hu := Point.Within.origin.polar hsize (hv.direction hp)
  have hw := Point.Within.origin.polar hsize (hv.direction hq)
  have hsmall : n + (1000 + (k + 1) * 1001 + (1000 + n + n)) +
      (1000 + (k + 1) * 1001 + (1000 + n + n))
      < 2 * hiddenBit := by
    rw [hiddenBit]
    omega
  simp only [rightAngle, List.forall_mem_cons, List.not_mem_nil, false_implies,
    implies_true, and_true]
  refine ⟨Point.isFinite_of ?_ ?_, Point.isFinite_of ?_ ?_, Point.isFinite_of ?_ ?_⟩
  · exact (hv.x.add hu.x).isFinite (by omega)
  · exact (hv.y.add hu.y).isFinite (by omega)
  · exact ((hv.x.add hu.x).add hw.x).isFinite hsmall
  · exact ((hv.y.add hu.y).add hw.y).isFinite hsmall
  · exact (hv.x.add hw.x).isFinite (by omega)
  · exact (hv.y.add hw.y).isFinite (by omega)

theorem Path.finite_ticks (ha : a.Within n) (hb : b.Within n) {t size spacing : Float} {count : ℕ}
    (ht : Figures.Within 1000 t) (hsize : Figures.Within 1000 size)
      (hspacing : Figures.Within 1000 spacing) (hcount : count ≤ 1000) (hn : n ≤ 1000000) :
    ∀ s ∈ ticks a b t count size spacing, s.isFinite = true := by
  have hone : Figures.Within 1000 1.0 := .of_bounds (by decide)
  unfold ticks
  dsimp only
  split
  · exact nofun
  rename_i hlen
  obtain ⟨hx, hy, -⟩ := Point.Within.unit (hb.x.sub ha.x) (hb.y.sub ha.y) hlen
  have hcenter := ha.lerp hb ht
  have hnormal := ha.normal hb
  intro s hs
  obtain ⟨i, hi, hs⟩ := List.mem_flatMap.mp hs
  have hsteps : ∀ {k : ℕ}, k ≤ 1000 → Figures.Within 1000 (Float.ofNat k) :=
    fun hk => (Within.ofNat _).mono hk
  have hoffset := (((hsteps hcount).sub hone).neg.half.add
    (hsteps (i.le_of_lt (List.mem_range.mp hi) |>.trans hcount))).mul hspacing
  simp only [List.mem_cons, List.not_mem_nil, or_false] at hs
  rcases hs with rfl | rfl
  · refine Point.isFinite_of
      (((hcenter.x.add (hx.mul hoffset)).sub (hnormal.x.mul hsize).half).isFinite ?_)
      (((hcenter.y.add (hy.mul hoffset)).sub (hnormal.y.mul hsize).half).isFinite ?_) <;>
    · rw [hiddenBit]
      omega
  · refine Point.isFinite_of
      (((hcenter.x.add (hx.mul hoffset)).add (hnormal.x.mul hsize).half).isFinite ?_)
      (((hcenter.y.add (hy.mul hoffset)).add (hnormal.y.mul hsize).half).isFinite ?_) <;>
    · rw [hiddenBit]
      omega

theorem finite_arrowHead {source tip : Point} (hsource : source.Within n) (htip : tip.Within n)
    {size : Float} (hsize : Figures.Within 1000 size) (hn : n ≤ 100000000) :
    ∀ p ∈ arrowHead source tip size, p.isFinite = true := by
  have hspread : Figures.Within 1000 (pi / 6.0) := .of_bounds (by decide)
  have htheta := hsource.direction htip
  have hcorner : ∀ {angle : Float}, angle.isFinite = true →
      (Point.isFinite ⟨tip.x - size * cosine angle, tip.y - size * sine angle⟩) = true := by
    intro angle hangle
    refine Point.isFinite_of ((htip.x.sub (hsize.mul (.cosine hangle))).isFinite ?_)
      ((htip.y.sub (hsize.mul (.sine hangle))).isFinite ?_) <;>
    · rw [hiddenBit]
      omega
  simp only [arrowHead, List.forall_mem_cons, List.not_mem_nil, false_implies,
    implies_true, and_true]
  refine ⟨htip.isFinite ?_, hcorner ((htheta.sub hspread).isFinite ?_),
    hcorner ((htheta.add hspread).isFinite ?_)⟩ <;>
  · rw [hiddenBit]
    omega

/-! ### arcs -/

/-- the numbers that are drawn of an arc around `vertex` are finite -/
structure AngleArc.Sized [Platform] (arc : AngleArc) (vertex : Point) : Prop where
  path : ∀ s ∈ arc.path, s.isFinite = true
  degrees : arc.degrees.isFinite = true
  labelAt : ∀ {distance}, Figures.Within 1000000 distance →
    (arc.labelAt vertex distance).isFinite = true

theorem AngleArc.sized_between (hv : vertex.Within n) (hp : p.Within n) (hq : q.Within n)
    {radius : Float} (hradius : Figures.Within 1000 radius) (hn : n ≤ 1000000) :
      (between vertex p q radius).Sized vertex := by
  have hfirst := hv.direction hp
  have hdelta := ((hv.direction hq).sub hfirst).normalizeAngle
  constructor
  · have hstart := hv.polar hradius hfirst
    have hfinish := hv.polar hradius (hfirst.add hdelta)
    simp only [path, List.forall_mem_cons, List.not_mem_nil, false_implies, implies_true, and_true,
      Segment.isFinite, Bool.and_eq_true]
    refine ⟨hstart.isFinite ?_, hfinish.isFinite ?_, hradius.isFinite (by decide)⟩ <;>
    · rw [hiddenBit]
      omega
  · refine (hdelta.abs.mul (.of_bounds (by decide))).isFinite ?_
    rw [hiddenBit]
    omega
  · intro distance hdistance
    refine (hv.polar hdistance (hfirst.add hdelta.half)).isFinite ?_
    rw [hiddenBit]
    omega

end

end Figures
