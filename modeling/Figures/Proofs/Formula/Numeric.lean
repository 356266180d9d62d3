import Figures.Formula.Value
import Figures.Proofs.Formula.Reader
import Figures.Proofs.Formula.Tiling
import Figures.Proofs.Json.Codec
import Figures.Proofs.Markup.Root
import Figures.Proofs.Number.Overflow

/-!
# Formulas whose value is a number

* `Helper.Computes`        the double that a helper works out of its arguments
* `Helper.Overflows`       the exact result is too large for a double, by the arithmetic of
                           rationals
* `Formula.Overflows`      so it is with a literal, or with the call that a formula is
* `Formula.Numeric`        the value of the formula is said to be a number, or a point of numbers
* `Helper.isPoint_midpoint_iff`   a midpoint is one of numbers unless its points are too far apart

A result that is too large is infinite, and the infinity becomes `null`. Half of a degree's worth is
lost in `degToRad`, and `clamp` moves a number nowhere else than to another argument: these two
never leave the range, and `midpoint` does so only with the difference of two coordinates.
-/

namespace Figures

open Document (Proper)

/-! ### values as numbers -/

namespace Json

theorem ofReal_eq_null_iff {x : Float} : ofReal x = .null ↔ x.isFinite = false := by
  unfold ofReal
  split
  · rename_i h
    exact iff_of_false nofun (by rw [h]; decide)
  · rename_i h
    exact iff_of_true rfl (Bool.not_eq_true _ ▸ h)

def IsNumber : Json → Prop
  | .integer _ => True
  | .real x => x.isFinite = true
  | _ => False

/-- an object with a number as `x` and one as `y` -/
def IsPoint (v : Json) : Prop :=
  (∃ x, v.member? "x" = some x ∧ x.IsNumber) ∧ ∃ y, v.member? "y" = some y ∧ y.IsNumber

theorem isNumber_ofReal {x : Float} : (ofReal x).IsNumber ↔ x.isFinite = true := by
  unfold ofReal
  split
  · rfl
  · rename_i h
    exact iff_of_false id h

theorem isPoint_ofPoint {p : Point} :
    (ofPoint p).IsPoint ↔ p.x.isFinite = true ∧ p.y.isFinite = true := by
  have hx : (ofPoint p).member? "x" = some (ofReal p.x) := rfl
  have hy : (ofPoint p).member? "y" = some (ofReal p.y) := rfl
  simp only [IsPoint, hx, hy, Option.some_inj, exists_eq_left', isNumber_ofReal]

theorem isFinite_number {context : String} {v : Json} {x : Float} (hv : (Document.ofJson v).Proper)
    (h : v.number context = .ok x) : x.isFinite = true := by
  cases v with
  | integer n =>
    cases h
    exact isFinite_ofInteger hv.1 hv.2
  | real y =>
    cases h
    exact hv
  | text s =>
    unfold number at h
    dsimp only at h
    split at h
    · rename_i y hy
      cases h
      exact (Option.filter_eq_some_iff.mp hy).2
    · cases h
  | null => cases h
  | boolean b => cases h
  | list items => cases h
  | object members => cases h

theorem isFinite_coordinate {context axis : String} {v : Json} {x : Float}
    (hv : (Document.ofJson v).Proper) (h : v.coordinate context axis = .ok x) :
      x.isFinite = true := by
  unfold coordinate at h
  split at h
  · rename_i c hc
    cases v with
    | object members =>
      exact isFinite_number ((Document.proper_ofJson_object.mp hv).2 _ (Dict.mem_of_lookup hc)) h
    | _ => cases hc
  · cases h

theorem isFinite_point {context : String} {v : Json} {p : Point} (hv : (Document.ofJson v).Proper)
    (h : v.point context = .ok p) : p.x.isFinite = true ∧ p.y.isFinite = true := by
  cases v with
  | object members =>
    obtain ⟨x, hx, h⟩ := ok_of_bind h
    obtain ⟨y, hy, h⟩ := ok_of_bind h
    cases h
    exact ⟨isFinite_coordinate hv hx, isFinite_coordinate hv hy⟩
  | _ => cases h

end Json

/-! ### helpers -/

def degreesPerRadian : Float := 57.2957795130823208767981548141051703

/-- the difference of two coordinates is too large for a double -/
def FarApart (p q : Point) : Prop :=
  doubleLimit ≤ |valueOf q.x - valueOf p.x| ∨ doubleLimit ≤ |valueOf q.y - valueOf p.y|

theorem not_farApart_iff {p q : Point} (hpx : p.x.isFinite = true) (hpy : p.y.isFinite = true)
    (hqx : q.x.isFinite = true) (hqy : q.y.isFinite = true) :
    ¬ FarApart p q ↔ (q.x - p.x).isFinite = true ∧ (q.y - p.y).isFinite = true := by
  rw [FarApart, not_or, not_le, not_le, ← (roundsTo_sub hqx hpx).isFinite_iff,
    ← (roundsTo_sub hqy hpy).isFinite_iff]

theorem isFinite_iff_not_of_rounds {q : ℚ} {z : Float} (hrounds : RoundsTo q z.toBits.toNat)
    {large : Prop} (hlarge : large ↔ doubleLimit ≤ |q|) : z.isFinite = true ↔ ¬ large := by
  rw [hrounds.isFinite_iff, hlarge, not_le]

namespace Helper

variable [Platform]

/-- the double that a helper works out of its arguments -/
inductive Computes : Helper → List Json → Float → Prop
  | degToRad {a x} (hx : a.number degToRad.name = .ok x) : Computes degToRad [a] (radians x)
  | radToDeg {a x} (hx : a.number radToDeg.name = .ok x) : Computes radToDeg [a] (degrees x)
  | distance {a b p q} (hp : a.point distance.name = .ok p) (hq : b.point distance.name = .ok q) :
      Computes distance [a, b] (Point.distance p q)
  | clamp {a b c x lo hi} (hx : a.number clamp.name = .ok x) (hlo : b.number clamp.name = .ok lo)
      (hhi : c.number clamp.name = .ok hi) (hle : ¬ hi < lo) :
      Computes clamp [a, b, c] (Figures.clamp lo hi x)
  | add {a b x y} (hx : a.number add.name = .ok x) (hy : b.number add.name = .ok y) :
      Computes add [a, b] (x + y)
  | sub {a b x y} (hx : a.number sub.name = .ok x) (hy : b.number sub.name = .ok y) :
      Computes sub [a, b] (x - y)
  | mul {a b x y} (hx : a.number mul.name = .ok x) (hy : b.number mul.name = .ok y) :
      Computes mul [a, b] (x * y)
  | div {a b x y} (hy : b.number div.name = .ok y) (hne : ¬ (y == 0.0) = true)
      (hx : a.number div.name = .ok x) : Computes div [a, b] (x / y)

/-- the exact result of a helper is too large for a double; on the way to a distance or a midpoint,
so is the difference of two coordinates. Whether a hypotenuse is too large is up to the platform -/
inductive Overflows : Helper → List Json → Prop
  | radToDeg {a x} (hx : a.number radToDeg.name = .ok x)
      (h : doubleLimit ≤ |valueOf x * valueOf degreesPerRadian|) : Overflows radToDeg [a]
  | add {a b x y} (hx : a.number add.name = .ok x) (hy : b.number add.name = .ok y)
      (h : doubleLimit ≤ |valueOf x + valueOf y|) : Overflows add [a, b]
  | sub {a b x y} (hx : a.number sub.name = .ok x) (hy : b.number sub.name = .ok y)
      (h : doubleLimit ≤ |valueOf x - valueOf y|) : Overflows sub [a, b]
  | mul {a b x y} (hx : a.number mul.name = .ok x) (hy : b.number mul.name = .ok y)
      (h : doubleLimit ≤ |valueOf x * valueOf y|) : Overflows mul [a, b]
  | div {a b x y} (hx : a.number div.name = .ok x) (hy : b.number div.name = .ok y)
      (h : doubleLimit ≤ |valueOf x / valueOf y|) : Overflows div [a, b]
  | leg {a b p q} (hp : a.point distance.name = .ok p) (hq : b.point distance.name = .ok q)
      (h : FarApart p q) : Overflows distance [a, b]
  | hypotenuse {a b p q} (hp : a.point distance.name = .ok p) (hq : b.point distance.name = .ok q)
      (h : (hypotenuse (q.x - p.x) (q.y - p.y)).isFinite = false) : Overflows distance [a, b]
  | midpoint {a b p q} (hp : a.point midpoint.name = .ok p) (hq : b.point midpoint.name = .ok q)
      (h : FarApart p q) : Overflows midpoint [a, b]

section
variable {h : Helper} {args : List Json} {v : Json} {z : Float}

theorem cases_of_apply (happly : h.apply args = .ok v) :
    (h.arity = 1 ∧ ∃ a, args = [a] ∧ h.apply1 a = .ok v) ∨
    (h.arity = 2 ∧ ∃ a b, args = [a, b] ∧ h.apply2 a b = .ok v) ∨
    (h.arity = 3 ∧ ∃ a b c, args = [a, b, c] ∧ h.apply3 a b c = .ok v) := by
  unfold apply at happly
  split at happly
  · rename_i a harity
    exact .inl ⟨harity, a, rfl, happly⟩
  · rename_i a b harity
    exact .inr (.inl ⟨harity, a, b, rfl, happly⟩)
  · rename_i a b c harity
    exact .inr (.inr ⟨harity, a, b, c, rfl, happly⟩)
  · cases happly

theorem computes_of_apply1 {a : Json} (harity : h.arity = 1) (happly : h.apply1 a = .ok v) :
    ∃ z, Computes h [a] z ∧ v = Json.ofReal z := by
  obtain ⟨x, hx, happly⟩ := ok_of_bind happly
  cases h <;> cases harity <;> cases happly
  · exact ⟨_, .degToRad hx, rfl⟩
  · exact ⟨_, .radToDeg hx, rfl⟩

theorem computes_of_apply2 {a b : Json} (harity : h.arity = 2) (hscalar : h ≠ midpoint)
    (happly : h.apply2 a b = .ok v) : ∃ z, Computes h [a, b] z ∧ v = Json.ofReal z := by
  cases h with
  | midpoint => exact absurd rfl hscalar
  | distance =>
    obtain ⟨p, hp, happly⟩ := ok_of_bind happly
    obtain ⟨q, hq, happly⟩ := ok_of_bind happly
    cases happly
    exact ⟨_, .distance hp hq, rfl⟩
  | div =>
    obtain ⟨y, hy, happly⟩ := ok_of_bind happly
    split at happly
    · cases happly
    · rename_i hne
      obtain ⟨x, hx, happly⟩ := ok_of_bind happly
      cases happly
      exact ⟨_, .div hy hne hx, rfl⟩
  | add =>
    obtain ⟨x, hx, happly⟩ := ok_of_bind happly
    obtain ⟨y, hy, happly⟩ := ok_of_bind happly
    cases happly
    exact ⟨_, .add hx hy, rfl⟩
  | sub =>
    obtain ⟨x, hx, happly⟩ := ok_of_bind happly
    obtain ⟨y, hy, happly⟩ := ok_of_bind happly
    cases happly
    exact ⟨_, .sub hx hy, rfl⟩
  | mul =>
    obtain ⟨x, hx, happly⟩ := ok_of_bind happly
    obtain ⟨y, hy, happly⟩ := ok_of_bind happly
    cases happly
    exact ⟨_, .mul hx hy, rfl⟩
  | degToRad => cases harity
  | radToDeg => cases harity
  | clamp => cases harity

theorem computes_of_apply3 {a b c : Json} (harity : h.arity = 3) (happly : h.apply3 a b c = .ok v) :
    ∃ z, Computes h [a, b, c] z ∧ v = Json.ofReal z := by
  obtain ⟨x, hx, happly⟩ := ok_of_bind happly
  obtain ⟨lo, hlo, happly⟩ := ok_of_bind happly
  obtain ⟨hi, hhi, happly⟩ := ok_of_bind happly
  split at happly
  · cases happly
  · rename_i hle
    cases happly
    cases h <;> cases harity
    exact ⟨_, .clamp hx hlo hhi hle, rfl⟩

theorem apply_of_computes (hc : Computes h args z) : h.apply args = .ok (.ofReal z) := by
  cases hc with
  | degToRad hx | radToDeg hx =>
    simp only [apply, arity, apply1, hx]
    rfl
  | distance hp hq =>
    simp only [apply, arity, apply2, hp, hq]
    rfl
  | clamp hx hlo hhi hle =>
    simp only [apply, arity, apply3, hx, hlo, hhi]
    exact if_neg hle
  | add hx hy | sub hx hy | mul hx hy =>
    simp only [apply, arity, apply2, hx, hy]
    rfl
  | div hy hne hx =>
    simp only [apply, arity, apply2, hx, hy]
    exact if_neg hne

/-- a helper other than `midpoint` boxes the double that it works out -/
theorem apply_eq_ok_iff (hscalar : h ≠ midpoint) :
    h.apply args = .ok v ↔ ∃ z, Computes h args z ∧ v = Json.ofReal z := by
  constructor
  · intro happly
    rcases cases_of_apply happly with ⟨harity, a, rfl, h1⟩ | ⟨harity, a, b, rfl, h2⟩ |
      ⟨harity, a, b, c, rfl, h3⟩
    · exact computes_of_apply1 harity h1
    · exact computes_of_apply2 harity hscalar h2
    · exact computes_of_apply3 harity h3
  · rintro ⟨z, hc, rfl⟩
    exact apply_of_computes hc

/-! ### which results are finite -/

theorem distance_overflows_iff {a b : Json} {p q : Point} (hp : a.point distance.name = .ok p)
    (hq : b.point distance.name = .ok q) : Overflows distance [a, b] ↔
      FarApart p q ∨ (hypotenuse (q.x - p.x) (q.y - p.y)).isFinite = false := by
  constructor
  · intro ho
    cases ho with
    | leg hp' hq' h =>
      cases Except.ok.inj (hp.symm.trans hp')
      cases Except.ok.inj (hq.symm.trans hq')
      exact .inl h
    | hypotenuse hp' hq' h =>
      cases Except.ok.inj (hp.symm.trans hp')
      cases Except.ok.inj (hq.symm.trans hq')
      exact .inr h
  · rintro (h | h)
    · exact .leg hp hq h
    · exact .hypotenuse hp hq h

end

section
variable [Platform.Sound] {h : Helper} {args : List Json} {v : Json} {z : Float}

/-- of proper arguments, a helper works out a finite double unless the exact result is too large -/
theorem Computes.isFinite_iff (hc : Computes h args z)
    (hargs : ∀ v ∈ args, (Document.ofJson v).Proper) :
    z.isFinite = true ↔ ¬ Overflows h args := by
  cases hc with
  | degToRad hx =>
    have hfinite := Json.isFinite_number (hargs _ (.head _)) hx
    exact iff_of_true (isFinite_radians hfinite) nofun
  | @radToDeg a x hx =>
    have hfinite := Json.isFinite_number (hargs _ (.head _)) hx
    have hunit : degreesPerRadian.isFinite = true := by decide
    have hrounds := roundsTo_mul hfinite hunit
    refine isFinite_iff_not_of_rounds hrounds ⟨fun ho => ?_, .radToDeg hx⟩
    cases ho with
    | radToDeg hx' h => rwa [Except.ok.inj (hx.symm.trans hx')]
  | @distance a b p q hp hq =>
    have hfirst := Json.isFinite_point (hargs a (.head _)) hp
    have hsecond := Json.isFinite_point (hargs b (.tail _ (.head _))) hq
    -- where a difference is too large, no hypotenuse is finite
    have hlegs := not_farApart_iff hfirst.1 hfirst.2 hsecond.1 hsecond.2
    rw [distance_overflows_iff hp hq, not_or, hlegs, Bool.not_eq_false]
    exact ⟨fun hfinite => ⟨Platform.Sound.hypotenuse_legs hfinite, hfinite⟩, And.right⟩
  | clamp hx hlo hhi hle =>
    have hfinite := Json.isFinite_number (hargs _ (.head _)) hx
    have hlow := Json.isFinite_number (hargs _ (.tail _ (.head _))) hlo
    have hhigh := Json.isFinite_number (hargs _ (.tail _ (.tail _ (.head _)))) hhi
    exact iff_of_true (isFinite_clamp hlow hhigh hfinite) nofun
  | @add a b x y hx hy =>
    have hrounds := roundsTo_add (Json.isFinite_number (hargs _ (.head _)) hx)
      (Json.isFinite_number (hargs _ (.tail _ (.head _))) hy)
    refine isFinite_iff_not_of_rounds hrounds ⟨fun ho => ?_, .add hx hy⟩
    cases ho with
    | add hx' hy' h => rwa [Except.ok.inj (hx.symm.trans hx'), Except.ok.inj (hy.symm.trans hy')]
  | @sub a b x y hx hy =>
    have hrounds := roundsTo_sub (Json.isFinite_number (hargs _ (.head _)) hx)
      (Json.isFinite_number (hargs _ (.tail _ (.head _))) hy)
    refine isFinite_iff_not_of_rounds hrounds ⟨fun ho => ?_, .sub hx hy⟩
    cases ho with
    | sub hx' hy' h => rwa [Except.ok.inj (hx.symm.trans hx'), Except.ok.inj (hy.symm.trans hy')]
  | @mul a b x y hx hy =>
    have hrounds := roundsTo_mul (Json.isFinite_number (hargs _ (.head _)) hx)
      (Json.isFinite_number (hargs _ (.tail _ (.head _))) hy)
    refine isFinite_iff_not_of_rounds hrounds ⟨fun ho => ?_, .mul hx hy⟩
    cases ho with
    | mul hx' hy' h => rwa [Except.ok.inj (hx.symm.trans hx'), Except.ok.inj (hy.symm.trans hy')]
  | @div a b x y hy hne hx =>
    have hdivisor := Json.isFinite_number (hargs b (.tail _ (.head _))) hy
    have hrounds := roundsTo_div (Json.isFinite_number (hargs a (.head _)) hx) hdivisor
      (mt (beq_zero_iff hdivisor).mpr hne)
    refine isFinite_iff_not_of_rounds hrounds ⟨fun ho => ?_, .div hx hy⟩
    cases ho with
    | div hx' hy' h => rwa [Except.ok.inj (hx.symm.trans hx'), Except.ok.inj (hy.symm.trans hy')]

omit [Platform.Sound] in
/-- a result that is too large is a result: a divisor of it is not zero -/
theorem Overflows.exists_computes (ho : Overflows h args) (hscalar : h ≠ Helper.midpoint)
    (hargs : ∀ v ∈ args, (Document.ofJson v).Proper) : ∃ z, Computes h args z := by
  cases ho with
  | radToDeg hx _ => exact ⟨_, .radToDeg hx⟩
  | add hx hy _ => exact ⟨_, .add hx hy⟩
  | sub hx hy _ => exact ⟨_, .sub hx hy⟩
  | mul hx hy _ => exact ⟨_, .mul hx hy⟩
  | leg hp hq _ => exact ⟨_, .distance hp hq⟩
  | midpoint => exact absurd rfl hscalar
  | hypotenuse hp hq _ => exact ⟨_, .distance hp hq⟩
  | @div a b x y hx hy h =>
    have hdivisor := Json.isFinite_number (hargs b (.tail _ (.head _))) hy
    refine ⟨_, .div hy (fun hzero => ?_) hx⟩
    rw [(beq_zero_iff hdivisor).mp hzero, div_zero, abs_zero] at h
    exact absurd h (not_le.mpr doubleLimit_pos)

/-- of proper arguments, a helper other than `midpoint` has null as its value if and only if the
exact result is too large; any other value is a number -/
theorem apply_scalar (hscalar : h ≠ midpoint) (hargs : ∀ v ∈ args, (Document.ofJson v).Proper) :
    (h.apply args = .ok .null ↔ Overflows h args) ∧
      ∀ v, h.apply args = .ok v → (v.IsNumber ↔ ¬ Overflows h args) := by
  refine ⟨⟨fun hnull => ?_, fun ho => ?_⟩, fun v hv => ?_⟩
  · obtain ⟨z, hc, hz⟩ := (apply_eq_ok_iff hscalar).mp hnull
    by_contra ho
    rw [Json.ofReal_of_isFinite ((hc.isFinite_iff hargs).mpr ho)] at hz
    cases hz
  · obtain ⟨z, hc⟩ := ho.exists_computes hscalar hargs
    have hinfinite : ¬ z.isFinite = true := fun hfinite => (hc.isFinite_iff hargs).mp hfinite ho
    rw [apply_of_computes hc, Json.ofReal_eq_null_iff.mpr (Bool.not_eq_true _ ▸ hinfinite)]
  · obtain ⟨z, hc, rfl⟩ := (apply_eq_ok_iff hscalar).mp hv
    exact Json.isNumber_ofReal.trans (hc.isFinite_iff hargs)

/-- The distance of two points that are not far apart is too large if the exact one is `2 ^ 1024` or
more, and not if it is no more than the largest double. In between, the last place of the hypotenuse
decides. -/
theorem distance_overflows {a b : Json} {p q : Point}
    (hargs : ∀ v ∈ [a, b], (Document.ofJson v).Proper) (hp : a.point distance.name = .ok p)
    (hq : b.point distance.name = .ok q) (hnear : ¬ FarApart p q) :
    ((2 ^ (1024 : ℤ)) ^ 2 ≤ valueOf (q.x - p.x) ^ 2 + valueOf (q.y - p.y) ^ 2 →
      Overflows distance [a, b]) ∧
    (valueOf (q.x - p.x) ^ 2 + valueOf (q.y - p.y) ^ 2 ≤ largestDouble ^ 2 →
      ¬ Overflows distance [a, b]) := by
  have hfirst := Json.isFinite_point (hargs a (.head _)) hp
  have hsecond := Json.isFinite_point (hargs b (.tail _ (.head _))) hq
  obtain ⟨hx, hy⟩ := (not_farApart_iff hfirst.1 hfirst.2 hsecond.1 hsecond.2).mp hnear
  constructor
  · intro hlarge
    refine .hypotenuse hp hq ?_
    rw [hypotenuse_eq_infinite hx hy hlarge]
    decide
  · intro hsmall
    rw [distance_overflows_iff hp hq, isFinite_hypotenuse hx hy hsmall]
    exact fun ho => ho.elim hnear (by decide)

end

/-! ### midpoints -/

section
variable {args : List Json} {v : Json}

theorem apply_midpoint (happly : midpoint.apply args = .ok v) : ∃ a b p q, args = [a, b] ∧
    a.point midpoint.name = .ok p ∧ b.point midpoint.name = .ok q ∧
    v = .ofPoint (Point.midpoint p q) := by
  rcases cases_of_apply happly with ⟨harity, -⟩ | ⟨-, a, b, rfl, h2⟩ | ⟨harity, -⟩
  · cases harity
  · obtain ⟨p, hp, h2⟩ := ok_of_bind h2
    obtain ⟨q, hq, h2⟩ := ok_of_bind h2
    cases h2
    exact ⟨a, b, p, q, rfl, hp, hq, rfl⟩
  · cases harity

theorem midpoint_overflows_iff {a b : Json} {p q : Point} (hp : a.point midpoint.name = .ok p)
    (hq : b.point midpoint.name = .ok q) : Overflows midpoint [a, b] ↔ FarApart p q := by
  refine ⟨fun ho => ?_, .midpoint hp hq⟩
  cases ho with
  | midpoint hp' hq' h =>
    cases Except.ok.inj (hp.symm.trans hp')
    cases Except.ok.inj (hq.symm.trans hq')
    exact h

/-- of proper arguments, the value of `midpoint` is a point of numbers unless the points are too far
apart -/
theorem isPoint_midpoint_iff (happly : midpoint.apply args = .ok v)
    (hargs : ∀ v ∈ args, (Document.ofJson v).Proper) : v.IsPoint ↔ ¬ Overflows midpoint args := by
  obtain ⟨a, b, p, q, rfl, hp, hq, rfl⟩ := apply_midpoint happly
  obtain ⟨hpx, hpy⟩ := Json.isFinite_point (hargs a (.head _)) hp
  obtain ⟨hqx, hqy⟩ := Json.isFinite_point (hargs b (.tail _ (.head _))) hq
  have hx : (Point.midpoint p q).x.isFinite = true ↔ _ := isFinite_midway hpx hqx
  have hy : (Point.midpoint p q).y.isFinite = true ↔ _ := isFinite_midway hpy hqy
  rw [Json.isPoint_ofPoint, hx, hy, midpoint_overflows_iff hp hq, FarApart, not_or, not_le, not_le]

/-- points that are too far apart have a midpoint all the same -/
theorem apply_midpoint_of_overflows (ho : Overflows midpoint args) :
    ∃ v, midpoint.apply args = .ok v := by
  cases ho with
  | @midpoint a b p q hp hq h =>
    refine ⟨.ofPoint (Point.midpoint p q), ?_⟩
    simp only [apply, arity, apply2, hp, hq]
    rfl

end

end Helper

end Figures
