import Figures.Proofs.Number.Order
import Figures.Template.Basic

/-!
# Steps that can abort

* `Abort`                   a step that cannot be carried out: bounds out of order, a place beyond a
                            list
* `Attempt ε α`             steps that may fail with an error, and may abort
* `Attempt.of x`            steps that do not abort, and come to the result of `x`
* `Attempt.clamp`, `item`   a number between two bounds, an item of a list: these may abort
* `Attempt.steps`           a drawing put together step by step: there may be more steps than room
                            for them
* `Attempt.of_bind`         if the steps in front do not abort, what follows them may rely on their
                            result
* `Template.le_of_ticks`    where ticks can be counted, the bounds are in order

A drawing function never looks at bounds before it keeps a number between them, nor at the length of
a list before it takes its first items, and most never count what they draw. Written as an attempt
it would abort if something were wrong with any of these.
-/

namespace Figures

inductive Abort where
  /-- the lower bound is not at most the upper one -/
  | bounds (lo hi : Float)
  /-- a list has no item at a place -/
  | place (index length : Nat)
  /-- a text has no room for so many pieces -/
  | room (pieces : Nat)

/-- the most bytes a text can have, and so the most pieces: each takes one at least -/
def capacity : Nat := 2 ^ 63 - 1

/-- steps that may fail with an error, and may abort -/
abbrev Attempt (ε : Type) := ExceptT ε (Except Abort)

namespace Attempt

variable {ε α β : Type}

/-- steps that do not abort -/
def of (x : Except ε α) : Attempt ε α := ExceptT.mk (.ok x)

def abort (reason : Abort) : Attempt ε α := ExceptT.mk (.error reason)

theorem of_bind {x : Except ε α} {f : α → Attempt ε β} {g : α → Except ε β}
    (h : ∀ a, x = .ok a → f a = of (g a)) : of x >>= f = of (x >>= g) := by
  cases x with
  | error e => rfl
  | ok a => exact h a rfl

/-- the results of the items, if none of them makes it abort -/
theorem mapM_eq {f : α → Attempt ε β} {g : α → β} {l : List α} (h : ∀ a ∈ l, f a = pure (g a)) :
    l.mapM f = pure (l.map g) := by
  induction l with
  | nil => rfl
  | cons a l ih =>
    rw [List.mapM_cons, h a List.mem_cons_self, pure_bind,
      ih fun b hb => h b (List.mem_cons_of_mem a hb), pure_bind]
    rfl

/-- `x` kept between two bounds, which have to be in order -/
def clamp (lo hi x : Float) : Attempt ε Float :=
  if lo ≤ hi then pure (Figures.clamp lo hi x) else abort (.bounds lo hi)

theorem clamp_eq {lo hi : Float} (h : lo ≤ hi) (x : Float) :
    (clamp lo hi x : Attempt ε Float) = pure (Figures.clamp lo hi x) := if_pos h

/-- the item of a list at a place, which has to be there -/
def item (l : List α) (i : Nat) : Attempt ε α :=
  match l[i]? with
  | some a => pure a
  | none => abort (.place i l.length)

theorem item_eq {l : List α} {i : Nat} {a : α} (h : l[i]? = some a) :
    (item l i : Attempt ε α) = pure a := by
  rw [item, h]

/-- what `count` steps draw, if a text has room for as many pieces -/
def steps (count : Nat) (draw : Nat → Drawing) : Attempt ε Drawing :=
  if count ≤ capacity then pure ((List.range count).flatMap draw) else abort (.room count)

theorem steps_of_le {count : Nat} (h : count ≤ capacity) (draw : Nat → Drawing) :
    (steps count draw : Attempt ε Drawing) = pure ((List.range count).flatMap draw) := if_pos h

theorem steps_of_lt {count : Nat} (h : capacity < count) (draw : Nat → Drawing) :
    (steps count draw : Attempt ε Drawing) = abort (.room count) := if_neg (Nat.not_le_of_lt h)

end Attempt

/-! ### bounds in order -/

theorem Template.le_of_ticks {lo hi step : Float} {limit : Nat} {marks : List Float}
    (h : ticks lo hi step limit = some marks) : lo ≤ hi := by
  rw [ticks] at h
  split at h
  · cases h
  · rename_i hbad
    simp only [Bool.or_eq_true, decide_eq_true_eq, not_or, Bool.not_eq_true] at hbad
    exact le_of_not_lt hbad.1.1.1.2 hbad.1.1.2 hbad.2

end Figures
