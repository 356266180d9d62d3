import Figures.Proofs.Attempt.Basic
import Figures.Proofs.Formula.Overflow

/-!
# Formulas do not abort

* `Helper.attempt`        a helper as it works: the number of its arguments is checked, then each is
                          taken from the list by its place
* `Formula.attempt`       the value of a formula, with helpers that may abort
* `Scope.attempt`         the value of a formula's text
* `Helper.attempt_eq`     no place lies beyond the arguments, and `clamp` has its bounds in order
* `Formula.attempt_eq`    so no formula aborts, however deep its calls are nested
* `Scope.attempt_eq`      and no text does

`clamp` only asks whether the upper bound is below the lower one, which is no question to a NaN. It
is enough, as the numbers of a proper scope are finite.
-/

namespace Figures

open Document (Proper)

namespace Helper

variable {h : Helper} {args : List Json}

def attemptNumber (h : Helper) (args : List Json) (i : Nat) : Attempt FormulaError Float := do
  let v ← Attempt.item args i
  .of (v.number h.name)

def attemptPoint (h : Helper) (args : List Json) (i : Nat) : Attempt FormulaError Point := do
  let v ← Attempt.item args i
  .of (v.point h.name)

theorem attemptNumber_eq {i : Nat} {v : Json} (hv : args[i]? = some v) :
    h.attemptNumber args i = .of (v.number h.name) := by
  rw [attemptNumber, Attempt.item_eq hv]
  rfl

theorem attemptPoint_eq {i : Nat} {v : Json} (hv : args[i]? = some v) :
    h.attemptPoint args i = .of (v.point h.name) := by
  rw [attemptPoint, Attempt.item_eq hv]
  rfl

section
variable (h)

theorem attempt_number (a : Json) (f : Float → Json) :
    (do
      let x ← h.attemptNumber [a] 0
      return f x) = .of (do
      let x ← a.number h.name
      .ok (f x)) := by
  rw [attemptNumber_eq (i := 0) rfl]
  exact Attempt.of_bind fun x _ => rfl

theorem attempt_numbers (a b : Json) (f : Float → Float → Json) :
    (do
      let x ← h.attemptNumber [a, b] 0
      let y ← h.attemptNumber [a, b] 1
      return f x y) = .of (do
      let x ← a.number h.name
      let y ← b.number h.name
      .ok (f x y)) := by
  rw [attemptNumber_eq (i := 0) rfl, attemptNumber_eq (i := 1) rfl]
  exact Attempt.of_bind fun x _ => Attempt.of_bind fun y _ => rfl

theorem attempt_points (a b : Json) (f : Point → Point → Json) :
    (do
      let p ← h.attemptPoint [a, b] 0
      let q ← h.attemptPoint [a, b] 1
      return f p q) = .of (do
      let p ← a.point h.name
      let q ← b.point h.name
      .ok (f p q)) := by
  rw [attemptPoint_eq (i := 0) rfl, attemptPoint_eq (i := 1) rfl]
  exact Attempt.of_bind fun p _ => Attempt.of_bind fun q _ => rfl

end

variable [Platform]

def attemptValue (h : Helper) (args : List Json) : Attempt FormulaError Json :=
  match h with
  | degToRad => do
    let x ← h.attemptNumber args 0
    return .ofReal (radians x)
  | radToDeg => do
    let x ← h.attemptNumber args 0
    return .ofReal (degrees x)
  | midpoint => do
    let p ← h.attemptPoint args 0
    let q ← h.attemptPoint args 1
    return .ofPoint (Point.midpoint p q)
  | distance => do
    let p ← h.attemptPoint args 0
    let q ← h.attemptPoint args 1
    return .ofReal (Point.distance p q)
  | clamp => do
    let x ← h.attemptNumber args 0
    let lo ← h.attemptNumber args 1
    let hi ← h.attemptNumber args 2
    if hi < lo then throw (.mistyped h.name "lower bound exceeds upper bound")
    else
      let kept ← Attempt.clamp lo hi x
      return .ofReal kept
  | add => do
    let x ← h.attemptNumber args 0
    let y ← h.attemptNumber args 1
    return .ofReal (x + y)
  | sub => do
    let x ← h.attemptNumber args 0
    let y ← h.attemptNumber args 1
    return .ofReal (x - y)
  | mul => do
    let x ← h.attemptNumber args 0
    let y ← h.attemptNumber args 1
    return .ofReal (x * y)
  | div => do
    let y ← h.attemptNumber args 1
    if y == 0.0 then throw .divisionByZero
    else
      let x ← h.attemptNumber args 0
      return .ofReal (x / y)

/-- the value of a helper; the number of its arguments is checked first -/
def attempt (h : Helper) (args : List Json) : Attempt FormulaError Json :=
  if args.length = h.arity then h.attemptValue args
  else throw (.arity h.name h.arity args.length)

theorem apply_of_arity_ne (hlength : args.length ≠ h.arity) :
    h.apply args = .error (.arity h.name h.arity args.length) := by
  unfold apply
  split
  · rename_i harity
    exact absurd harity.symm hlength
  · rename_i harity
    exact absurd harity.symm hlength
  · rename_i harity
    exact absurd harity.symm hlength
  · rfl

/-- the dividend is only looked at behind a divisor that is not zero -/
theorem attempt_div (a b : Json) : div.attemptValue [a, b] = .of (div.apply2 a b) := by
  rw [attemptValue, attemptNumber_eq (i := 1) rfl, attemptNumber_eq (i := 0) rfl]
  refine Attempt.of_bind fun y _ => ?_
  by_cases hzero : (y == 0.0) = true
  · rw [if_pos hzero, if_pos hzero]
    rfl
  · rw [if_neg hzero, if_neg hzero]
    exact Attempt.of_bind fun x _ => rfl

theorem attempt_clamp {a b c : Json} (hb : (Document.ofJson b).Proper)
    (hc : (Document.ofJson c).Proper) :
    clamp.attemptValue [a, b, c] = .of (clamp.apply3 a b c) := by
  rw [attemptValue, attemptNumber_eq (i := 0) rfl, attemptNumber_eq (i := 1) rfl,
    attemptNumber_eq (i := 2) rfl]
  refine Attempt.of_bind fun x _ => Attempt.of_bind fun lo hlo => Attempt.of_bind fun hi hhi => ?_
  by_cases hbounds : hi < lo
  · rw [if_pos hbounds, if_pos hbounds]
    rfl
  · have hordered : lo ≤ hi := le_of_not_lt (isNaN_of_isFinite (Json.isFinite_number hb hlo))
      (isNaN_of_isFinite (Json.isFinite_number hc hhi)) hbounds
    rw [if_neg hbounds, if_neg hbounds, Attempt.clamp_eq hordered]
    rfl

/-- with the right number of arguments every place is there -/
theorem attemptValue_eq (hlength : args.length = h.arity)
    (hargs : ∀ v ∈ args, (Document.ofJson v).Proper) :
    h.attemptValue args = .of (h.apply args) := by
  have one (hone : h.arity = 1) : ∃ a, args = [a] := List.length_eq_one_iff.mp (hlength.trans hone)
  have two (htwo : h.arity = 2) : ∃ a b, args = [a, b] := List.length_eq_two.mp (hlength.trans htwo)
  cases h with
  | degToRad =>
    obtain ⟨a, rfl⟩ := one rfl
    exact attempt_number degToRad a fun x => .ofReal (radians x)
  | radToDeg =>
    obtain ⟨a, rfl⟩ := one rfl
    exact attempt_number radToDeg a fun x => .ofReal (degrees x)
  | midpoint =>
    obtain ⟨a, b, rfl⟩ := two rfl
    exact attempt_points midpoint a b fun p q => .ofPoint (Point.midpoint p q)
  | distance =>
    obtain ⟨a, b, rfl⟩ := two rfl
    exact attempt_points distance a b fun p q => .ofReal (Point.distance p q)
  | clamp =>
    obtain ⟨a, b, c, rfl⟩ := List.length_eq_three.mp hlength
    exact attempt_clamp (hargs b (by simp)) (hargs c (by simp))
  | add =>
    obtain ⟨a, b, rfl⟩ := two rfl
    exact attempt_numbers add a b fun x y => .ofReal (x + y)
  | sub =>
    obtain ⟨a, b, rfl⟩ := two rfl
    exact attempt_numbers sub a b fun x y => .ofReal (x - y)
  | mul =>
    obtain ⟨a, b, rfl⟩ := two rfl
    exact attempt_numbers mul a b fun x y => .ofReal (x * y)
  | div =>
    obtain ⟨a, b, rfl⟩ := two rfl
    exact attempt_div a b

/-- a helper does not abort, whatever the number of its arguments -/
theorem attempt_eq (hargs : ∀ v ∈ args, (Document.ofJson v).Proper) :
    h.attempt args = .of (h.apply args) := by
  by_cases hlength : args.length = h.arity
  · rw [attempt, if_pos hlength, attemptValue_eq hlength hargs]
  · rw [attempt, if_neg hlength, apply_of_arity_ne hlength]
    rfl

end Helper

variable [Platform]

def attemptCall (name : String) (args : List Json) : Attempt FormulaError Json :=
  match Helper.ofName? name with
  | some h => h.attempt args
  | none => throw (.unknownHelper name)

theorem attemptCall_eq (name : String) {args : List Json}
    (hargs : ∀ v ∈ args, (Document.ofJson v).Proper) :
    attemptCall name args = .of (callHelper name args) := by
  rw [attemptCall, callHelper]
  cases Helper.ofName? name with
  | none => rfl
  | some h => exact Helper.attempt_eq hargs

namespace Formula

mutual

/-- the value of a formula in a scope; arguments from left to right, then the call -/
def attempt (scope : Json) : Formula → Attempt FormulaError Json
  | number x => return .ofReal x
  | text s => return .text s
  | path segments => .of (lookup scope segments)
  | call name args => do
    let values ← attemptAll scope args
    attemptCall name values

/-- the values of several formulas; the first error ends it -/
def attemptAll (scope : Json) : List Formula → Attempt FormulaError (List Json)
  | [] => return []
  | f :: rest => do
    let v ← attempt scope f
    let vs ← attemptAll scope rest
    return v :: vs

end

mutual

/-- no formula aborts: the values that a call gets are proper -/
theorem attempt_eq {scope : Json} (hscope : (Document.ofJson scope).Proper) (f : Formula) :
    f.attempt scope = .of (eval scope f) := by
  cases f with
  | number x => rw [attempt, eval]; rfl
  | text s => rw [attempt, eval]; rfl
  | path segments => rw [attempt, eval]
  | call name args =>
    rw [attempt, eval, attemptAll_eq hscope args]
    exact Attempt.of_bind fun values hvalues => attemptCall_eq name (proper_evalAll hscope hvalues)

theorem attemptAll_eq {scope : Json} (hscope : (Document.ofJson scope).Proper) (fs : List Formula) :
    attemptAll scope fs = .of (evalAll scope fs) := by
  cases fs with
  | nil => rw [attemptAll, evalAll]; rfl
  | cons f rest =>
    rw [attemptAll, evalAll, attempt_eq hscope f, attemptAll_eq hscope rest]
    exact Attempt.of_bind fun v _ => Attempt.of_bind fun vs _ => rfl

end

end Formula

namespace Scope

/-- the value of a formula's text; blanks around it are ignored -/
def attempt (scope : Scope) (source : String) : Attempt Unresolved Json :=
  ExceptT.mk <| (do
    let f ← Attempt.of (Formula.read (Text.trim source))
    f.attempt scope.values : Attempt FormulaError Json).run.map
      fun value => value.mapError (Unresolved.mk source)

theorem attempt_eq {scope : Scope} (hscope : (Document.ofJson scope.values).Proper)
    (source : String) :
    scope.attempt source = .of (scope.evaluate source) := by
  rw [attempt, Attempt.of_bind fun f _ => Formula.attempt_eq hscope f, evaluate]
  rfl

end Scope

end Figures
