import Figures.Proofs.Param.Merged
import Figures.Proofs.Param.Policies
import Figures.Template.Basic

/-!
# Declared parameters

* `Params.AgreesOn s p q`       the parameters are the same at every key that a schema declares
* `AgreesOn.label`, …           a reader that is asked for a declared key reads the same
* `AgreesOn.merge`, `settleFlags`   so it is after filling up and settling
* `Params.ignored`              what is reported of malformed positions that are not declared
* `Params.check_eq_declared`    a check finds the same otherwise

A check looks at the keys of the schema first, and at the end through all positions: what it reports
of undeclared ones stands behind all other warnings, and is never an error.
-/

namespace Figures

namespace Params

structure AgreesOn (s : Schema) (p q : Params) : Prop where
  labels : ∀ name, s.labels.contains name = true → p.labels.get? name = q.labels.get? name
  values : ∀ name, s.values.contains name = true → p.values.get? name = q.values.get? name
  visibility : ∀ name, s.visibility.contains name = true →
    p.visibility.get? name = q.visibility.get? name
  positions : ∀ name, s.positions.contains name = true →
    p.positions.get? name = q.positions.get? name

namespace AgreesOn

variable {s : Schema} {p q : Params} (h : AgreesOn s p q) {name : String}
include h

/-! ### readers -/

theorem label (hname : s.labels.contains name = true) : p.label name = q.label name := by
  rw [Params.label, Params.label, h.labels name hname]

theorem labelOr (hname : s.labels.contains name = true) (fallback : String) :
    p.labelOr name fallback = q.labelOr name fallback := by
  rw [Params.labelOr, Params.labelOr, h.label hname]

theorem number? (hname : s.values.contains name = true) : p.number? name = q.number? name := by
  rw [Params.number?, Params.number?, h.values name hname]

theorem required (hname : s.values.contains name = true) : p.required name = q.required name := by
  rw [Params.required, Params.required, h.number? hname]

theorem positive (hname : s.values.contains name = true) : p.positive name = q.positive name := by
  rw [Params.positive, Params.positive, h.required hname]

theorem text (hname : s.values.contains name = true) : p.text name = q.text name := by
  rw [Params.text, Params.text, h.values name hname]

theorem visible (hname : s.visibility.contains name = true) : p.visible name = q.visible name := by
  rw [Params.visible, Params.visible, h.visibility name hname]

/-! ### preparation -/

/-- presets are put in at declared keys -/
theorem merge : AgreesOn s (p.merge s) (q.merge s) where
  labels name hname := by
    rw [(p.filledFrom_merge s).labels, (q.filledFrom_merge s).labels, h.labels name hname]
  values name hname := by
    rw [(p.filledFrom_merge s).values, (q.filledFrom_merge s).values, h.values name hname]
  visibility name hname := by
    rw [(p.filledFrom_merge s).visibility, (q.filledFrom_merge s).visibility,
      h.visibility name hname]
  positions name hname := by
    rw [(p.filledFrom_merge s).positions, (q.filledFrom_merge s).positions, h.positions name hname]

theorem settleFlags : AgreesOn s (p.settleFlags s) (q.settleFlags s) where
  labels := h.labels
  values := h.values
  visibility name hname := by rw [get?_settleFlags, get?_settleFlags, h.visibility name hname]
  positions := h.positions

end AgreesOn

/-! ### checks -/

variable (p : Params) (s : Schema) (policy : Policy)

/-- what is found at the keys of a schema -/
def declaredFindings : List Finding :=
  s.labels.entries.flatMap (fun e => checkLabel e.1 e.2 (p.labels.get? e.1)) ++
    s.values.entries.flatMap (fun e => checkValue e.1 e.2 (p.values.get? e.1)) ++
    s.positions.entries.flatMap (fun e => checkPosition e.1 e.2 (p.positions.get? e.1)) ++
    s.visibility.entries.flatMap (fun e => checkFlag policy e.1 (p.visibility.get? e.1))

/-- the position is not a pair of numbers, and not one that the schema declares -/
def isIgnored (e : String × Position) : Bool :=
  match e.2 with
  | .known _ => false
  | .malformed _ => !s.positions.contains e.1

/-- what is reported of the malformed positions that the schema does not declare -/
def ignored : List String :=
  (p.positions.entries.filter (isIgnored s)).map fun e =>
    s!"Position \"{e.1}\" is malformed and will be ignored"

theorem checkUndeclared_eq (e : String × Position) : checkUndeclared s.positions e.1 e.2
    = if isIgnored s e then [.positionIgnored e.1] else [] := by
  obtain ⟨name, position⟩ := e
  cases position with
  | known point => rfl
  | malformed v =>
    cases hname : s.positions.contains name <;> simp [checkUndeclared, isIgnored, hname]

theorem warnings_undeclared : Finding.warnings
    (p.positions.entries.flatMap fun e => checkUndeclared s.positions e.1 e.2) = p.ignored s := by
  unfold ignored
  induction p.positions.entries with
  | nil => rfl
  | cons e rest ih =>
    rw [List.flatMap_cons, Finding.warnings_append, ih, checkUndeclared_eq, List.filter_cons]
    cases isIgnored s e <;> rfl

/-- what is reported of undeclared positions stands behind all other warnings -/
theorem check_eq_declared : p.check s policy =
    ⟨Finding.warnings (p.declaredFindings s policy) ++ p.ignored s,
      Finding.errors (p.declaredFindings s policy)⟩ := by
  rw [check_eq, findings, Finding.warnings_append, Finding.errors_append, warnings_undeclared,
    errors_undeclared, List.append_nil]
  rfl

/-- no preset is put in at a position that is not declared -/
theorem ignored_merge : (p.merge s).ignored s = p.ignored s := by
  rw [← warnings_undeclared, ← warnings_undeclared]
  refine congrArg Finding.warnings (Dict.flatMap_congr fun k => ?_)
  cases hspec : s.positions.get? k with
  | some spec => exact .inr fun v => checkUndeclared_of_declared hspec v
  | none =>
    refine .inl ?_
    rw [(p.filledFrom_merge s).positions, hspec]
    exact Option.or_none

variable {p s}

theorem AgreesOn.declaredFindings {q : Params} (h : AgreesOn s p q) :
    p.declaredFindings s policy = q.declaredFindings s policy := by
  have hdeclared : ∀ {β : Type} {specs : Dict β} {e : String × β}, e ∈ specs.entries →
      specs.contains e.1 = true := fun he => by
    rw [Dict.contains, Dict.get?_eq_some_iff.mpr he]
    rfl
  unfold Params.declaredFindings
  congr 1
  · congr 1
    · congr 1
      · exact List.flatMap_congr fun e he => by rw [h.labels e.1 (hdeclared he)]
      · exact List.flatMap_congr fun e he => by rw [h.values e.1 (hdeclared he)]
    · exact List.flatMap_congr fun e he => by rw [h.positions e.1 (hdeclared he)]
  · exact List.flatMap_congr fun e he => by rw [h.visibility e.1 (hdeclared he)]

end Params

end Figures
