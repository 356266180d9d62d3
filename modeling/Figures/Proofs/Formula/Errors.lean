import Figures.Formula.Value
import Figures.Proofs.Formula.Margins

/-!
# Errors of formulas and errors of values

* `Sober x`                        no error of `x` is about a text that is no formula
* `Sober.bind`                     nor is one of two steps in a row
* `Formula.sober_eval`             nor is one of a formula's value
* `Scope.evaluate_eq_error_iff`    a text whose evaluation fails so is no formula without the blanks
                                   around it, and this in every scope

Evaluation fails for a syntax error only while the text is read, before the scope is looked at.
-/

namespace Figures

/-- no error is about a text that is no formula -/
def Sober {α : Type} (x : Except FormulaError α) : Prop := ∀ e, x = .error e → ¬ e.Syntactic

namespace Sober

variable {α β : Type}

theorem ok (a : α) : Sober (.ok a) := nofun

theorem error {e : FormulaError} (h : ¬ e.Syntactic) : Sober (.error e : Except FormulaError α) :=
  fun _ heq => Except.error.inj heq ▸ h

theorem bind {x : Except FormulaError α} {f : α → Except FormulaError β} (hx : Sober x)
    (hf : ∀ a, Sober (f a)) : Sober (x >>= f) := by
  intro e he
  rcases error_of_bind he with he | ⟨a, -, he⟩
  · exact hx e he
  · exact hf a e he

theorem ite {c : Prop} [Decidable c] {x y : Except FormulaError α} (hx : Sober x) (hy : Sober y) :
    Sober (if c then x else y) := by
  split
  · exact hx
  · exact hy

end Sober

/-! ### values -/

namespace Json

theorem sober_number (context : String) (v : Json) : Sober (v.number context) := by
  unfold number
  split
  · exact .ok _
  · exact .ok _
  · split
    · exact .ok _
    · exact .error nofun
  · exact .error nofun

theorem sober_coordinate (context axis : String) (v : Json) :
    Sober (v.coordinate context axis) := by
  unfold coordinate
  split
  · exact sober_number _ _
  · exact .error nofun

theorem sober_point (context : String) (v : Json) : Sober (v.point context) := by
  unfold point
  split
  · exact (sober_coordinate _ _ _).bind fun x => (sober_coordinate _ _ _).bind fun y => .ok _
  · exact .error nofun

end Json

namespace Helper

open Json (sober_number sober_point)

theorem sober_apply1 (h : Helper) (a : Json) : Sober (h.apply1 a) := by
  refine (sober_number _ _).bind fun x => ?_
  cases h <;> exact .ok _

theorem sober_apply2 (h : Helper) (a b : Json) : Sober (h.apply2 a b) := by
  unfold apply2
  split
  · exact (sober_point _ _).bind fun p => (sober_point _ _).bind fun q => .ok _
  · exact (sober_point _ _).bind fun p => (sober_point _ _).bind fun q => .ok _
  · exact (sober_number _ _).bind fun y =>
      .ite (.error nofun) ((sober_number _ _).bind fun x => .ok _)
  · refine (sober_number _ _).bind fun x => (sober_number _ _).bind fun y => ?_
    split <;> exact .ok _

theorem sober_apply3 (h : Helper) (a b c : Json) : Sober (h.apply3 a b c) :=
  (sober_number _ _).bind fun _ => (sober_number _ _).bind fun _ => (sober_number _ _).bind fun _ =>
    .ite (.error nofun) (.ok _)

theorem sober_apply (h : Helper) (args : List Json) : Sober (h.apply args) := by
  unfold apply
  split
  · exact sober_apply1 _ _
  · exact sober_apply2 _ _ _
  · exact sober_apply3 _ _ _ _
  · exact .error nofun

end Helper

theorem sober_callHelper (name : String) (args : List Json) : Sober (callHelper name args) := by
  unfold callHelper
  split
  · exact Helper.sober_apply _ _
  · exact .error nofun

namespace Formula

theorem sober_lookup (scope : Json) (segments : List String) : Sober (lookup scope segments) := by
  unfold lookup
  split
  · exact .ok _
  · exact .error nofun

mutual

/-- no value of a formula fails for a text that is none -/
theorem sober_eval (scope : Json) (f : Formula) : Sober (eval scope f) := by
  cases f with
  | number x => exact .ok _
  | text s => exact .ok _
  | path segments => exact sober_lookup scope segments
  | call name args =>
    rw [eval]
    exact (sober_evalAll scope args).bind fun values => sober_callHelper name values

theorem sober_evalAll (scope : Json) (args : List Formula) : Sober (evalAll scope args) := by
  cases args with
  | nil => exact .ok _
  | cons f rest =>
    rw [evalAll]
    exact (sober_eval scope f).bind fun v => (sober_evalAll scope rest).bind fun vs => .ok _

end

theorem syntactic_of_read {s : String} {e : FormulaError} (h : read s = .error e) :
    e.Syntactic := by
  rw [read_eq] at h
  exact (readChars_error h).1

end Formula

/-- in every scope, what fails for a syntax error is a text that is no formula without the blanks
around it -/
theorem Scope.evaluate_eq_error_iff (scope : Scope) (source : String) {e : FormulaError}
    (h : e.Syntactic) :
    scope.evaluate source = .error ⟨source, e⟩ ↔ Formula.read (Text.trim source) = .error e := by
  rw [evaluate]
  cases hread : Formula.read (Text.trim source) with
  | error d =>
    show Except.error (Unresolved.mk source d) = .error ⟨source, e⟩ ↔ _
    simp
  | ok f =>
    refine iff_of_false (fun heval => ?_) nofun
    obtain ⟨d, heval, hd⟩ := error_of_mapError heval
    cases hd
    exact Formula.sober_eval scope.values f e heval h

theorem Scope.evaluate_fails_iff (scope : Scope) (source : String) :
    (∃ e, e.Syntactic ∧ scope.evaluate source = .error ⟨source, e⟩) ↔
      ∃ e, Formula.read (Text.trim source) = .error e := by
  constructor
  · rintro ⟨e, he, heval⟩
    exact ⟨e, (scope.evaluate_eq_error_iff source he).mp heval⟩
  · rintro ⟨e, hread⟩
    have he := Formula.syntactic_of_read hread
    exact ⟨e, he, (scope.evaluate_eq_error_iff source he).mpr hread⟩

end Figures
