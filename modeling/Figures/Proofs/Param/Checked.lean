import Figures.Param.Check
import Figures.Proofs.Dict
import Figures.Proofs.Text.Pieces
import Mathlib.Tactic.ByContra

/-!
# What checked parameters hold

* `Dict.get?_fill`            a dictionary filled up with presets
* `Setting.number?_of_isBlank`   a text of blanks denotes no number
* `checkLabel_of_missing`, `checkLabel_of_fits`, …   what is found at one key
* `Params.Blank`              the caller gave a text of blanks for a value
* `Params.check_eq`           a check reports the warnings and the errors among the findings
* `Params.warned_of_check`    behind a check without errors, all findings are warnings
* `Params.number?_merge_iff`  behind it, a declared number is not there if and only if it is blank
-/

namespace Figures

namespace Dict

variable {α β : Type} {preset : β → Option α}

theorem get?_insertIfNew (d : Dict α) (k j : String) (v : α) :
    (d.insertIfNew k v).get? j = (d.get? j).or (if j = k then some v else none) := by
  rw [insertIfNew, contains]
  by_cases hj : j = k
  · subst hj
    rw [if_pos rfl]
    cases hd : d.get? j with
    | none => rw [Option.isSome_none, if_neg (by decide), get?_insert, if_pos rfl, Option.none_or]
    | some w => rw [Option.isSome_some, if_pos rfl, hd, Option.some_or]
  · rw [if_neg hj, Option.or_none]
    split
    · rfl
    · rw [get?_insert, if_neg hj]

theorem get?_foldl_insertIfNew {l : List (String × β)} (hl : Ascending l) (d : Dict α)
    (k : String) :
    (l.foldl (fun d e => match preset e.2 with
      | some v => d.insertIfNew e.1 v
      | none => d) d).get? k = (d.get? k).or (l.lookup k >>= preset) := by
  induction l generalizing d with
  | nil => exact (Option.or_none).symm
  | cons e l ih =>
    obtain ⟨he, hl⟩ := List.pairwise_cons.mp hl
    have hstep : (match preset e.2 with
        | some v => d.insertIfNew e.1 v
        | none => d).get? k = (d.get? k).or (if k = e.1 then preset e.2 else none) := by
      cases hpreset : preset e.2 with
      | some v => exact get?_insertIfNew d e.1 k v
      | none => rw [ite_self, Option.or_none]
    rw [List.foldl_cons, ih hl, hstep, Option.or_assoc, List.lookup_cons]
    by_cases hk : k = e.1
    · -- the keys that follow are others
      have hnone : l.lookup k = none :=
        lookup_eq_none fun x hx heq => Std.ne_of_lt (he x hx) (hk.symm.trans heq.symm)
      rw [if_pos hk, hnone, hk, beq_self_eq_true]
      exact congrArg _ Option.or_none
    · rw [if_neg hk, beq_eq_false_iff_ne.mpr hk, Option.none_or]

/-- every key holds what is given, or else its preset -/
theorem get?_fill (given : Dict α) (specs : Dict β) (preset : β → Option α) (k : String) :
    (given.fill specs preset).get? k = (given.get? k).or (specs.get? k >>= preset) :=
  get?_foldl_insertIfNew specs.ascending given k

theorem get?_fill_of_mem {given : Dict α} {specs : Dict β} {e : String × β}
    (he : e ∈ specs.entries) :
    (given.fill specs preset).get? e.1 = (given.get? e.1).or (preset e.2) := by
  rw [get?_fill, get?_eq_some_iff.mpr he]
  rfl

theorem get?_fill_of_preset {given : Dict α} {specs : Dict β} {k : String} {spec : β} {v : α}
    (hspec : specs.get? k = some spec) (hpreset : preset spec = some v) :
    (given.fill specs preset).get? k = some ((given.get? k).getD v) := by
  rw [get?_fill, hspec, Option.bind_eq_bind, Option.bind_some, hpreset]
  cases given.get? k <;> rfl

end Dict

theorem Setting.number?_of_isBlank {v : Setting} (h : v.isBlank = true) : v.number? = none := by
  cases v with
  | number x => cases h
  | text s =>
    have hempty : readNumber? "" = none := by decide
    rw [number?, Text.trim_of_isBlank h, hempty]
    rfl

namespace Finding

def warnings (fs : List Finding) : List String := (fs.filter isWarning).map message

def errors (fs : List Finding) : List String := (fs.filter fun f => !f.isWarning).map message

theorem warnings_append (fs gs : List Finding) : warnings (fs ++ gs) = warnings fs ++
    warnings gs := by
  rw [warnings, List.filter_append, List.map_append]
  rfl

theorem errors_append (fs gs : List Finding) : errors (fs ++ gs) = errors fs ++ errors gs := by
  rw [errors, List.filter_append, List.map_append]
  rfl

theorem errors_nil : errors [] = [] := rfl

theorem warnings_singleton {f : Finding} (h : f.isWarning = false) : warnings [f] = [] := by
  rw [warnings, List.filter_singleton, h]
  rfl

theorem errors_singleton {f : Finding} (h : f.isWarning = false) : errors [f] = [f.message] := by
  rw [errors, List.filter_singleton, h]
  rfl

theorem errors_eq_nil_iff {fs : List Finding} :
    errors fs = [] ↔ ∀ f ∈ fs, f.isWarning = true := by
  rw [errors, List.map_eq_nil_iff, List.filter_eq_nil_iff]
  exact forall_congr' fun f => by rw [Bool.not_eq_true', Bool.not_eq_false]

theorem diagnosis_eq (f : Finding) : f.diagnosis = ⟨warnings [f], errors [f]⟩ := by
  rw [diagnosis, warnings, errors, List.filter_singleton, List.filter_singleton]
  cases f.isWarning <;> rfl

theorem concat_diagnosis (fs : List Finding) :
    Diagnosis.concat (fs.map diagnosis) = ⟨warnings fs, errors fs⟩ := by
  induction fs with
  | nil => rfl
  | cons f fs ih =>
    rw [← List.singleton_append, warnings_append, errors_append, List.singleton_append]
    show f.diagnosis ++ Diagnosis.concat (fs.map diagnosis) = _
    rw [ih, diagnosis_eq]
    rfl

end Finding

/-! ### what is found at one key -/

section
variable {name : String}

theorem mem_ifRequired_iff {required : Bool} {f g : Finding} :
    f ∈ ifRequired required g ↔ required = true ∧ f = g := by
  rw [ifRequired]
  split
  next h => exact List.mem_singleton.trans (and_iff_right h).symm
  next h => exact iff_of_false List.not_mem_nil fun hf => h hf.1

theorem filter_of_missing {α : Type} {blank : α → Bool} {given : Option α}
    (hmissing : ∀ v, given = some v → blank v = true) :
      given.filter (fun v => !blank v) = none := by
  cases given with
  | none => rfl
  | some v => exact Option.filter_some_neg (by rw [hmissing v rfl]; decide)

theorem filter_not_blank {α : Type} {blank : α → Bool} {v : α} (h : blank v = false) :
    (some v).filter (fun v => !blank v) = some v := Option.filter_some_pos (by rw [h]; rfl)

theorem checkLabel_of_missing {spec : LabelSpec} {given : Option String}
    (hmissing : ∀ text, given = some text → Text.isBlank text = true) :
    checkLabel name spec given = ifRequired spec.required (.labelMissing name) := by
  rw [checkLabel, filter_of_missing hmissing]

theorem checkLabel_of_fits {spec : LabelSpec} {text : String} (hblank : Text.isBlank text = false)
    (hfits : ∀ most, spec.maxLength = some most → text.toList.length ≤ most) :
    checkLabel name spec (some text) = [] := by
  rw [checkLabel, filter_not_blank hblank]
  dsimp only
  cases hmost : spec.maxLength with
  | none => rfl
  | some most => exact if_neg (Nat.not_lt.mpr (hfits most hmost))

theorem checkBounds_of_admits {spec : ValueSpec} {x : Float} (h : spec.admits x = true) :
    checkBounds name spec x = [] := by
  obtain ⟨hmin, hmax⟩ := Bool.and_eq_true_iff.mp h
  rw [checkBounds]
  refine List.append_eq_nil_iff.mpr ⟨?_, ?_⟩
  · cases hlow : spec.min with
    | none => rfl
    | some low =>
      rw [hlow] at hmin
      exact if_neg (by simpa using hmin)
  · cases hhigh : spec.max with
    | none => rfl
    | some high =>
      rw [hhigh] at hmax
      exact if_neg (by simpa using hmax)

theorem checkValue_of_missing {spec : ValueSpec} {given : Option Setting}
    (hmissing : ∀ v, given = some v → v.isBlank = true) :
    checkValue name spec given = ifRequired spec.required (.valueMissing name) := by
  rw [checkValue, filter_of_missing hmissing]

theorem checkValue_of_not_number {spec : ValueSpec} {v : Setting} (hblank : v.isBlank = false)
    (hkind : spec.kind = .number) (hnumber : v.number? = none) :
    checkValue name spec (some v) = [.valueNotNumber name v] := by
  rw [checkValue, filter_not_blank hblank]
  dsimp only
  rw [hkind]
  dsimp only
  rw [hnumber]

/-- nothing is found at a value that is not blank, if any text will do or it is a number within
bounds -/
theorem checkValue_of_admits {spec : ValueSpec} {v : Setting} (hblank : v.isBlank = false)
    (hadmits : spec.kind = .number → ∃ x, v.number? = some x ∧ spec.admits x = true) :
    checkValue name spec (some v) = [] := by
  rw [checkValue, filter_not_blank hblank]
  dsimp only
  cases hkind : spec.kind with
  | text => rfl
  | number =>
    obtain ⟨x, hx, hx'⟩ := hadmits hkind
    dsimp only
    rw [hx]
    exact checkBounds_of_admits hx'

theorem checkPosition_of_placed {spec : PositionSpec} {position : Position} {point : Point}
    (hpoint : position.point? = some point)
    (hplaced : spec.normalized = true → point.inUnitSquare = true) :
    checkPosition name spec (some position) = [] := by
  rw [checkPosition, hpoint]
  refine if_neg ?_
  rw [Bool.and_eq_true, Bool.not_eq_true']
  rintro ⟨hnormalized, houtside⟩
  rw [hplaced hnormalized] at houtside
  cases houtside

theorem checkUndeclared_of_declared {declared : Dict PositionSpec} {spec : PositionSpec}
    (hspec : declared.get? name = some spec) (given : Position) :
    checkUndeclared declared name given = [] := by
  have hdeclared : declared.contains name = true := by
    rw [Dict.contains, hspec]
    rfl
  cases given with
  | known point => rfl
  | malformed v => exact if_pos hdeclared

end

namespace Params

variable {p : Params} {s : Schema} {policy : Policy}

/-- the caller gave a text of blanks for the value `name` -/
def Blank (p : Params) (name : String) : Prop :=
  ∃ v, p.values.get? name = some v ∧ v.isBlank = true

theorem check_eq (p : Params) (s : Schema) (policy : Policy) : p.check s policy
    = ⟨Finding.warnings (p.findings s policy), Finding.errors (p.findings s policy)⟩ :=
  Finding.concat_diagnosis _

theorem ok_check_iff : (p.check s policy).ok = true ↔
    ∀ f ∈ p.findings s policy, f.isWarning = true := by
  rw [check_eq, Diagnosis.ok, List.isEmpty_iff, Finding.errors_eq_nil_iff]

theorem warned_of_check (hok : (p.check s policy).ok = true) {f : Finding}
    (hf : f ∈ p.findings s policy) : f.isWarning = true := ok_check_iff.mp hok f hf

theorem warned_value (hok : (p.check s policy).ok = true) {name : String} {spec : ValueSpec}
    (hspec : s.values.get? name = some spec) :
    ∀ f ∈ checkValue name spec (p.values.get? name), f.isWarning = true := by
  intro f hf
  refine warned_of_check hok ?_
  simp only [findings, List.mem_append, List.mem_flatMap]
  exact .inl (.inl (.inl (.inr ⟨(name, spec), Dict.mem_of_get? hspec, hf⟩)))

theorem mem_warnings_check {w : String} (h : w ∈ (p.check s policy).warnings) :
    ∃ f : Finding, w = f.message := by
  rw [check_eq] at h
  obtain ⟨f, -, rfl⟩ := List.mem_map.mp h
  exact ⟨f, rfl⟩

/-- a checked value that should be a number is one, unless it is blank and not required -/
theorem number_or_blank_of_check (hok : (p.check s policy).ok = true) {name : String}
    {spec : ValueSpec} (hspec : s.values.get? name = some spec) (hkind : spec.kind = .number)
    {v : Setting} (hv : p.values.get? name = some v) :
    v.number?.isSome = true ∨ v.isBlank = true ∧ spec.required = false := by
  have hwarned := warned_value hok hspec
  rw [hv] at hwarned
  cases hblank : v.isBlank with
  | true =>
    refine .inr ⟨rfl, ?_⟩
    by_contra hrequired
    rw [checkValue_of_missing fun w hw => Option.some.inj hw ▸ hblank] at hwarned
    exact absurd (hwarned _ (mem_ifRequired_iff.mpr ⟨Bool.of_not_eq_false hrequired, rfl⟩)) nofun
  | false =>
    refine .inl ?_
    cases hnumber : v.number? with
    | some x => rfl
    | none =>
      rw [checkValue_of_not_number hblank hkind hnumber] at hwarned
      exact absurd (hwarned _ List.mem_cons_self) nofun

/-- behind a check, a number with a preset is not there if and only if it is blank and not
required -/
theorem number?_merge_iff {name : String} {spec : ValueSpec} {x : Float}
    (hok : ((p.merge s).check s policy).ok = true) (hspec : s.values.get? name = some spec)
    (hkind : spec.kind = .number) (hpreset : spec.preset = some (.number x)) :
    (p.merge s).number? name = none ↔ p.Blank name ∧ spec.required = false := by
  have hvalue : (p.merge s).values.get? name = some ((p.values.get? name).getD (.number x)) :=
    Dict.get?_fill_of_preset hspec hpreset
  have hchecked := number_or_blank_of_check hok hspec hkind hvalue
  have hnumber : (p.merge s).number? name = ((p.values.get? name).getD (.number x)).number? := by
    rw [Params.number?, hvalue]
    rfl
  rw [hnumber]
  constructor
  · intro hnone
    rw [hnone] at hchecked
    obtain ⟨hblank, hrequired⟩ := hchecked.resolve_left (by decide)
    refine ⟨?_, hrequired⟩
    cases hgiven : p.values.get? name with
    | none =>
      rw [hgiven] at hblank
      cases hblank
    | some v =>
      rw [hgiven] at hblank
      exact ⟨v, hgiven, hblank⟩
  · rintro ⟨⟨v, hgiven, hblank⟩, -⟩
    rw [hgiven]
    exact Setting.number?_of_isBlank hblank

end Params

end Figures
