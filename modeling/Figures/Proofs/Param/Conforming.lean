import Figures.Proofs.Number.Order
import Figures.Proofs.Param.Prepared

/-!
# What parameters hold behind a check that finds nothing

* `Params.Conforms s q`       everything that the schema `s` declares holds of the parameters `q`
* `Params.LongBlank`, `Unbounded`, `Unmeasured`   the three ways past the check: a label of blanks
  that is too long, a number that is not finite, a bound that is no number
* `Params.findings_eq_nil`    a check that reports nothing has found nothing
* `Params.conforms_iff`       behind such a check the parameters conform, but for these three ways

Every rule is checked by its negation, and blank texts are passed over before their rule is looked
at.
-/

namespace Figures

namespace Params

/-- everything that a schema declares holds of the parameters -/
structure Conforms (s : Schema) (q : Params) : Prop where
  label_fits : ∀ name spec text most, s.labels.get? name = some spec →
    q.labels.get? name = some text → spec.maxLength = some most → text.toList.length ≤ most
  label_given : ∀ name spec, s.labels.get? name = some spec → spec.required = true →
    ∃ text, q.labels.get? name = some text ∧ Text.isBlank text = false
  number_within : ∀ name spec v, s.values.get? name = some spec → spec.kind = .number →
    q.values.get? name = some v → v.isBlank = false →
    ∃ x, v.number? = some x ∧ x.isFinite = true ∧
      (∀ low, spec.min = some low → low ≤ x) ∧ (∀ high, spec.max = some high → x ≤ high)
  value_given : ∀ name spec, s.values.get? name = some spec → spec.required = true →
    ∃ v, q.values.get? name = some v ∧ v.isBlank = false
  position_placed : ∀ name spec position, s.positions.get? name = some spec →
    q.positions.get? name = some position →
    ∃ point : Point, position = .known point ∧ point.x.isFinite = true ∧ point.y.isFinite = true ∧
      (spec.normalized = true → 0.0 ≤ point.x ∧ point.x ≤ 1.0 ∧ 0.0 ≤ point.y ∧ point.y ≤ 1.0)
  position_given : ∀ name spec, s.positions.get? name = some spec → spec.required = true →
    (q.positions.get? name).isSome = true
  flag_known : ∀ name spec flag, s.visibility.get? name = some spec →
    q.visibility.get? name = some flag → ∃ b, flag = .known b

/-- a label of blanks is longer than the schema allows -/
def LongBlank (s : Schema) (q : Params) : Prop :=
  ∃ name spec text most, s.labels.get? name = some spec ∧ q.labels.get? name = some text ∧
    Text.isBlank text = true ∧ spec.maxLength = some most ∧ most < text.toList.length

/-- a number is given that is infinite, or no number at all -/
def Unbounded (s : Schema) (q : Params) : Prop :=
  ∃ name spec x, s.values.get? name = some spec ∧ spec.kind = .number ∧
    q.values.get? name = some (.number x) ∧ x.isFinite = false

/-- a number is given for which the schema has a bound that is no number -/
def Unmeasured (s : Schema) (q : Params) : Prop :=
  ∃ name spec v bound, s.values.get? name = some spec ∧ spec.kind = .number ∧
    q.values.get? name = some v ∧ v.isBlank = false ∧
    (spec.min = some bound ∨ spec.max = some bound) ∧ bound.isNaN = true

variable {p q : Params} {s : Schema} {policy : Policy} {name : String}

/-! ### nothing found -/

theorem length_of_checkLabel {spec : LabelSpec} {text : String} {most : Nat}
    (hnone : checkLabel name spec (some text) = []) (hblank : Text.isBlank text = false)
    (hmost : spec.maxLength = some most) : text.toList.length ≤ most := by
  by_contra hlong
  have hfound : checkLabel name spec (some text) =
      [.labelTooLong name most text.toList.length] := by
    rw [checkLabel, filter_not_blank hblank]
    dsimp only
    rw [hmost]
    exact if_pos (Nat.lt_of_not_le hlong)
  rw [hfound] at hnone
  exact absurd hnone (List.cons_ne_nil _ _)

theorem bounds_of_checkValue {spec : ValueSpec} {v : Setting} {x : Float}
    (hnone : checkValue name spec (some v) = []) (hblank : v.isBlank = false)
    (hkind : spec.kind = .number) (hx : v.number? = some x) :
    (∀ low, spec.min = some low → ¬ x < low) ∧ (∀ high, spec.max = some high → ¬ high < x) := by
  have hbounds : checkBounds name spec x = [] := by
    rw [checkValue, filter_not_blank hblank] at hnone
    dsimp only at hnone
    rw [hkind] at hnone
    dsimp only at hnone
    rw [hx] at hnone
    exact hnone
  obtain ⟨hmin, hmax⟩ := List.append_eq_nil_iff.mp hbounds
  constructor
  · intro low hlow hlt
    rw [hlow] at hmin
    dsimp only at hmin
    rw [if_pos hlt] at hmin
    exact absurd hmin (List.cons_ne_nil _ _)
  · intro high hhigh hlt
    rw [hhigh] at hmax
    dsimp only at hmax
    rw [if_pos hlt] at hmax
    exact absurd hmax (List.cons_ne_nil _ _)

theorem inside_of_checkPosition {spec : PositionSpec} {position : Position} {point : Point}
    (hnone : checkPosition name spec (some position) = []) (hpoint : position.point? = some point)
    (hnormalized : spec.normalized = true) : point.inUnitSquare = true := by
  by_contra houtside
  have hfound : checkPosition name spec (some position) = [.positionOutside name point] := by
    rw [checkPosition, hpoint]
    dsimp only
    rw [hnormalized, Bool.eq_false_iff.mpr houtside]
    rfl
  rw [hfound] at hnone
  exact absurd hnone (List.cons_ne_nil _ _)

theorem findings_eq_nil (hclean : q.check s policy = {}) : q.findings s policy = [] := by
  have hwarned : ∀ f ∈ q.findings s policy, f.isWarning = true :=
    ok_check_iff.mp (by rw [hclean]; rfl)
  have hwarnings : (q.check s policy).warnings = [] := by rw [hclean]
  rw [check_eq] at hwarnings
  have hnone := List.filter_eq_nil_iff.mp (List.map_eq_nil_iff.mp hwarnings)
  exact List.eq_nil_iff_forall_not_mem.mpr fun f hf => hnone f hf (hwarned f hf)

section
variable (hclean : q.check s policy = {})
include hclean

theorem checkLabel_eq_nil {spec : LabelSpec} (hspec : s.labels.get? name = some spec) :
    checkLabel name spec (q.labels.get? name) = [] := by
  have hnone := findings_eq_nil hclean
  simp only [findings, List.append_eq_nil_iff, List.flatMap_eq_nil_iff] at hnone
  exact hnone.1.1.1.1 (name, spec) (Dict.mem_of_get? hspec)

theorem checkValue_eq_nil {spec : ValueSpec} (hspec : s.values.get? name = some spec) :
    checkValue name spec (q.values.get? name) = [] := by
  have hnone := findings_eq_nil hclean
  simp only [findings, List.append_eq_nil_iff, List.flatMap_eq_nil_iff] at hnone
  exact hnone.1.1.1.2 (name, spec) (Dict.mem_of_get? hspec)

theorem checkPosition_eq_nil {spec : PositionSpec} (hspec : s.positions.get? name = some spec) :
    checkPosition name spec (q.positions.get? name) = [] := by
  have hnone := findings_eq_nil hclean
  simp only [findings, List.append_eq_nil_iff, List.flatMap_eq_nil_iff] at hnone
  exact hnone.1.1.2 (name, spec) (Dict.mem_of_get? hspec)

end

/-! ### what holds -/

theorem Conforms.not_longBlank (h : q.Conforms s) : ¬ q.LongBlank s := by
  rintro ⟨name, spec, text, most, hspec, htext, -, hmost, hlong⟩
  exact absurd (h.label_fits name spec text most hspec htext hmost) (Nat.not_le_of_lt hlong)

theorem Conforms.not_unbounded (h : q.Conforms s) : ¬ q.Unbounded s := by
  rintro ⟨name, spec, x, hspec, hkind, hvalue, hinfinite⟩
  obtain ⟨y, hy, hfinite, -⟩ := h.number_within name spec (.number x) hspec hkind hvalue rfl
  obtain rfl : x = y := Option.some.inj hy
  exact absurd hfinite (by rw [hinfinite]; decide)

theorem Conforms.not_unmeasured (h : q.Conforms s) : ¬ q.Unmeasured s := by
  rintro ⟨name, spec, v, bound, hspec, hkind, hvalue, hblank, hbound, hnan⟩
  obtain ⟨x, -, -, hmin, hmax⟩ := h.number_within name spec v hspec hkind hvalue hblank
  rcases hbound with hbound | hbound
  · exact absurd (isNaN_of_le (hmin bound hbound)).1 (by rw [hnan]; decide)
  · exact absurd (isNaN_of_le (hmax bound hbound)).2 (by rw [hnan]; decide)

/-- a number that is not blank is finite, however it is given -/
theorem finite_of_number {v : Setting} {x : Float} {spec : ValueSpec} (hunbounded : ¬ q.Unbounded s)
    (hspec : s.values.get? name = some spec) (hkind : spec.kind = .number)
    (hvalue : q.values.get? name = some v) (hx : v.number? = some x) : x.isFinite = true := by
  cases v with
  | number y =>
    obtain rfl : y = x := Option.some.inj hx
    by_contra hinfinite
    exact hunbounded ⟨name, spec, y, hspec, hkind, hvalue, Bool.eq_false_iff.mpr hinfinite⟩
  | text t =>
    rw [Setting.number?, Option.filter_eq_some_iff] at hx
    exact hx.2

/-- Parameters that are filled up and pass the strict check without a finding conform to the schema
if and only if no label is a text of blanks beyond its length, no number is given that is not
finite, and no bound of a number that is given is not a number itself. -/
theorem conforms_iff (p : Params) (s : Schema) (hclean : (p.merge s).check s .strict = {}) :
    (p.merge s).Conforms s ↔
      ¬ (p.merge s).LongBlank s ∧ ¬ (p.merge s).Unbounded s ∧ ¬ (p.merge s).Unmeasured s := by
  refine ⟨fun h => ⟨h.not_longBlank, h.not_unbounded, h.not_unmeasured⟩, ?_⟩
  rintro ⟨hlong, hunbounded, hunmeasured⟩
  have hok : ((p.merge s).check s .strict).ok = true := by rw [hclean]; rfl
  have hsupplied := supplied_merge hok
  exact
    { label_fits := by
        intro name spec text most hspec htext hmost
        cases hblank : Text.isBlank text with
        | true =>
          by_contra hgreater
          exact hlong ⟨name, spec, text, most, hspec, htext, hblank, hmost,
            Nat.lt_of_not_le hgreater⟩
        | false => exact length_of_checkLabel (htext ▸ checkLabel_eq_nil hclean hspec) hblank hmost
      label_given := hsupplied.label_present
      number_within := by
        intro name spec v hspec hkind hvalue hblank
        have hread := hsupplied.number_read name spec v hspec hkind hvalue hblank
        rw [number?, hvalue] at hread
        obtain ⟨x, hx⟩ := Option.isSome_iff_exists.mp hread
        have hfinite := finite_of_number hunbounded hspec hkind hvalue hx
        obtain ⟨hmin, hmax⟩ :=
          bounds_of_checkValue (hvalue ▸ checkValue_eq_nil hclean hspec) hblank hkind hx
        -- the negated comparisons are the bounds, as everything compared is a number
        have hmeasured : ∀ bound, spec.min = some bound ∨ spec.max = some bound →
            bound.isNaN = false := by
          intro bound hbound
          by_contra hnan
          exact hunmeasured
            ⟨name, spec, v, bound, hspec, hkind, hvalue, hblank, hbound, Bool.not_eq_false _ ▸ hnan⟩
        exact ⟨x, hx, hfinite,
          fun low hlow => le_of_not_lt (hmeasured low (.inl hlow)) (isNaN_of_isFinite hfinite)
            (hmin low hlow),
          fun high hhigh => le_of_not_lt (isNaN_of_isFinite hfinite) (hmeasured high (.inr hhigh))
            (hmax high hhigh)⟩
      value_given := hsupplied.value_present
      position_placed := by
        intro name spec position hspec hposition
        have hread := hsupplied.point_read name spec hspec (by rw [hposition]; rfl)
        rw [point?, hposition] at hread
        obtain ⟨point, hpoint⟩ := Option.isSome_iff_exists.mp hread
        change position.point? = some point at hpoint
        have hinside := inside_of_checkPosition (hposition ▸ checkPosition_eq_nil hclean
          hspec) hpoint
        cases position with
        | malformed v => cases hpoint
        | known point' =>
          obtain ⟨hfinite, heq⟩ := Option.ite_none_right_eq_some.mp hpoint
          obtain rfl := Option.some.inj heq
          obtain ⟨hx, hy⟩ := Bool.and_eq_true_iff.mp hfinite
          refine ⟨point', rfl, hx, hy, fun hnormalized => ?_⟩
          simpa [Point.inUnitSquare, and_assoc] using hinside hnormalized
      position_given := hsupplied.position_present
      flag_known := (switched_strict hok).flag_known }

/-- a label of at most three characters, and a number between nought and ten -/
def ruled : Schema :=
  (({} : Schema).label "A" { maxLength := some 3 }).value "r"
    ((ValueSpec.number 5.0).range 0.0 10.0)

/-- a short label, and a number given as text -/
def tidied : Params := (({} : Params).withLabel "A" "ab").withValue "r" (.text " 7.5 ")

/-- these parameters conform: none of the three ways past the check is taken -/
theorem conforms_iff_tidied :
    (tidied.merge ruled).check ruled .strict = {} ∧ (tidied.merge ruled).Conforms ruled := by
  have hclean : (tidied.merge ruled).check ruled .strict = {} := by decide
  have hlabels : (tidied.merge ruled).labels.entries = [("A", "ab")] := rfl
  have hvalues : (tidied.merge ruled).values.entries = [("r", .text " 7.5 ")] := rfl
  have hspecs : ruled.values.entries = [("r", (ValueSpec.number 5.0).range 0.0 10.0)] := rfl
  refine ⟨hclean, (conforms_iff tidied ruled hclean).mpr ⟨?_, ?_, ?_⟩⟩
  · rintro ⟨name, spec, text, most, -, htext, hblank, -⟩
    have hmem := Dict.mem_of_get? htext
    rw [hlabels, List.mem_singleton] at hmem
    obtain ⟨rfl, rfl⟩ := Prod.mk.inj hmem
    exact absurd hblank (by decide)
  · rintro ⟨name, spec, x, -, -, hvalue, -⟩
    have hmem := Dict.mem_of_get? hvalue
    rw [hvalues, List.mem_singleton] at hmem
    exact absurd (Prod.mk.inj hmem).2 nofun
  · rintro ⟨name, spec, v, bound, hspec, -, -, -, hbound, hnan⟩
    have hmem := Dict.mem_of_get? hspec
    rw [hspecs, List.mem_singleton] at hmem
    obtain ⟨rfl, rfl⟩ := Prod.mk.inj hmem
    rcases hbound with hbound | hbound
    · obtain rfl := Option.some.inj hbound
      exact absurd hnan (by decide)
    · obtain rfl := Option.some.inj hbound
      exact absurd hnan (by decide)

/-- a label of four blanks, and a number that is none: the check finds nothing, and the parameters
do not conform -/
theorem clean_not_conforming :
    (((({} : Params).withLabel "A" "    ").merge ruled).check ruled .strict = {} ∧
      ¬ ((({} : Params).withLabel "A" "    ").merge ruled).Conforms ruled) ∧
    (((({} : Params).withValue "r" (.number (0.0 / 0.0))).merge ruled).check ruled .strict = {} ∧
      ¬ ((({} : Params).withValue "r" (.number (0.0 / 0.0))).merge ruled).Conforms ruled) := by
  refine ⟨⟨by decide, fun h => h.not_longBlank ?_⟩, by decide, fun h =>
    h.not_unbounded ?_⟩
  · exact ⟨"A", _, "    ", 3, rfl, rfl, by decide, rfl, by decide⟩
  · exact ⟨"r", _, 0.0 / 0.0, rfl, rfl, rfl, by decide⟩

end Params

end Figures
