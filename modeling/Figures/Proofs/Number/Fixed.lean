import Figures.Number.Fixed

/-!
# The characters of decimals

* `numeral`          the characters that a decimal is written with
* `numeral_cases`    digits, the sign and the point
* `numeral_tidy`     a double in markup is written with these characters only
-/

namespace Figures

def numeral (c : Char) : Bool := c.isDigit || c = '-' || c = '.'

theorem isDigit_bounds {c : Char} (h : c.isDigit = true) : 48 ≤ c.toNat ∧ c.toNat ≤ 57 := by
  simpa [Char.isDigit, UInt32.le_iff_toNat_le] using h

theorem numeral_cases {c : Char} (h : numeral c = true) :
    (48 ≤ c.toNat ∧ c.toNat ≤ 57) ∨ c = '-' ∨ c = '.' := by
  rw [numeral, Bool.or_eq_true, Bool.or_eq_true, decide_eq_true_iff, decide_eq_true_iff] at h
  rcases h with (h | h) | h
  · exact .inl (isDigit_bounds h)
  · exact .inr (.inl h)
  · exact .inr (.inr h)

theorem numeral_repr (n : Nat) : ∀ c ∈ (Nat.repr n).toList, numeral c = true := by
  intro c hc
  have hdigits : c ∈ Nat.toDigits 10 n := by simpa [Nat.repr] using hc
  rw [numeral, Nat.isDigit_of_mem_toDigits (by decide) (by decide) hdigits]
  rfl

theorem numeral_digitChar (n : Nat) : numeral (Nat.digitChar (n % 10)) = true := by
  have hdigit : (Nat.digitChar (n % 10)).isDigit = true := by
    rw [Nat.isDigit_digitChar, decide_eq_true (Nat.mod_lt n (by decide))]
  rw [numeral, hdigit]
  rfl

namespace Fixed

theorem numeral_lastDigits (n width : Nat) (acc : List Char) (h : ∀ c ∈ acc, numeral c = true) :
    ∀ c ∈ lastDigits n width acc, numeral c = true := by
  induction width generalizing n acc with
  | zero => exact h
  | succ w ih =>
    refine ih (n / 10) _ fun c hc => ?_
    rcases List.mem_cons.mp hc with rfl | hc
    · exact numeral_digitChar n
    · exact h c hc

theorem numeral_text (d : Fixed) : ∀ c ∈ d.text.toList, numeral c = true := by
  have hsigned : ∀ c ∈ (if d.negative then "-" ++ Nat.repr (d.units / powerOfTen d.places)
      else Nat.repr (d.units / powerOfTen d.places)).toList, numeral c = true := by
    intro c hc
    split at hc
    · rw [String.toList_append, List.mem_append] at hc
      rcases hc with hc | hc
      · have hminus : c = '-' := by simpa using hc
        exact hminus ▸ rfl
      · exact numeral_repr _ c hc
    · exact numeral_repr _ c hc
  intro c hc
  unfold text at hc
  dsimp only at hc
  split at hc
  · exact hsigned c hc
  · simp only [String.toList_append, String.toList_ofList, List.mem_append] at hc
    rcases hc with (hc | hc) | hc
    · exact hsigned c hc
    · have hdot : c = '.' := by simpa using hc
      exact hdot ▸ rfl
    · exact numeral_lastDigits _ _ [] (fun c hc => absurd hc List.not_mem_nil) c hc

end Fixed

/-- a double in markup is written with digits, a sign and a point -/
theorem numeral_tidy (places : Nat) (x : Float) :
    ∀ c ∈ (tidy places x).toList, numeral c = true := by
  intro c hc
  rw [tidy_standard] at hc
  cases hx : Binary.ofFloat? x with
  | none =>
    rw [hx] at hc
    have hzero : c = '0' := by simpa using hc
    exact hzero ▸ rfl
  | some b =>
    rw [hx] at hc
    exact Fixed.numeral_text (Fixed.round places b).shorten c hc

end Figures
