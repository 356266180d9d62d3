import Figures.Proofs.Param.Merged

/-!
# The strict and the lenient policy

* `Params.malformedFlags`      the declared switches that are malformed, with what was given for
                               them
* `Params.warnings_check`      the policy has no say in the warnings of a check
* `Params.errors_strict`       the strict errors are the lenient ones and then one for each of these
                               switches
* `Params.check_policies`      so a strict check of settled parameters is a lenient check of the
                               given ones

Switches are looked at last but for the undeclared positions, and those only give warnings: so the
errors about switches stand at the end.
-/

namespace Figures

def Flag.malformed? : Flag → Option Json
  | .known _ => none
  | .malformed v => some v

theorem Flag.malformed?_eq_some_iff {f : Flag} {v : Json} :
    f.malformed? = some v ↔ f = .malformed v := by
  cases f <;> simp [malformed?]

namespace Params

variable (p : Params) (s : Schema)

def malformedFlag? (name : String) : Option Json := p.visibility.get? name >>= Flag.malformed?

/-- the declared switches that are malformed, by ascending key, each with what was given for it -/
def malformedFlags : List (String × Json) :=
  s.visibility.entries.filterMap fun e => (p.malformedFlag? e.1).map (Prod.mk e.1)

variable {p s} in
theorem malformedFlag?_eq_some_iff {name : String} {v : Json} :
    p.malformedFlag? name = some v ↔ p.visibility.get? name = some (.malformed v) := by
  simp [malformedFlag?, Option.bind_eq_some_iff, Flag.malformed?_eq_some_iff]

variable {p s} in
theorem mem_malformedFlags_iff {name : String} {v : Json} : (name, v) ∈ p.malformedFlags s ↔
    (s.visibility.get? name).isSome = true ∧ p.visibility.get? name = some (.malformed v) := by
  rw [← malformedFlag?_eq_some_iff, malformedFlags, List.mem_filterMap]
  constructor
  · rintro ⟨⟨k, spec⟩, he, hflag⟩
    obtain ⟨w, hw, heq⟩ := Option.map_eq_some_iff.mp hflag
    obtain ⟨rfl, rfl⟩ := Prod.mk.inj heq
    exact ⟨Option.isSome_iff_exists.mpr ⟨spec, Dict.get?_eq_some_iff.mpr he⟩, hw⟩
  · rintro ⟨hdeclared, hgiven⟩
    obtain ⟨spec, hspec⟩ := Option.isSome_iff_exists.mp hdeclared
    exact ⟨(name, spec), Dict.get?_eq_some_iff.mp hspec,
      Option.map_eq_some_iff.mpr ⟨v, hgiven, rfl⟩⟩

/-- the switches come by ascending key, as the schema has them -/
theorem ascending_malformedFlags : Dict.Ascending (p.malformedFlags s) := by
  refine List.Pairwise.filterMap _ (fun e e' hlt a ha b hb => ?_) s.visibility.ascending
  obtain ⟨v, -, rfl⟩ := Option.map_eq_some_iff.mp ha
  obtain ⟨w, -, rfl⟩ := Option.map_eq_some_iff.mp hb
  exact hlt

/-! ### what is found under either policy -/

theorem checkFlag_lenient (name : String) (given : Option Flag) :
    checkFlag .lenient name given = [] := rfl

theorem checkFlag_strict (name : String) : checkFlag .strict name (p.visibility.get? name)
    = (p.malformedFlag? name).toList.map (Finding.flagMalformed name) := by
  rw [malformedFlag?]
  cases p.visibility.get? name with
  | none => rfl
  | some flag => cases flag <;> rfl

theorem findings_flags_lenient : (s.visibility.entries.flatMap
    fun e => checkFlag .lenient e.1 (p.visibility.get? e.1)) = [] :=
  List.flatMap_eq_nil_iff.mpr fun _ _ => checkFlag_lenient _ _

theorem findings_flags_strict : (s.visibility.entries.flatMap
      fun e => checkFlag .strict e.1 (p.visibility.get? e.1))
    = (p.malformedFlags s).map fun e => Finding.flagMalformed e.1 e.2 := by
  rw [malformedFlags, List.map_filterMap, List.filterMap_eq_flatMap_toList]
  refine List.flatMap_congr fun e _ => ?_
  rw [checkFlag_strict]
  cases p.malformedFlag? e.1 <;> rfl

theorem warnings_flags (l : List (String × Json)) :
    Finding.warnings (l.map fun e => Finding.flagMalformed e.1 e.2) = [] := by
  rw [Finding.warnings, List.map_eq_nil_iff, List.filter_eq_nil_iff]
  intro f hf
  obtain ⟨e, -, rfl⟩ := List.mem_map.mp hf
  exact Bool.false_ne_true

theorem errors_flags (l : List (String × Json)) :
    Finding.errors (l.map fun e => Finding.flagMalformed e.1 e.2)
      = l.map fun e => (Finding.flagMalformed e.1 e.2).message := by
  rw [Finding.errors, List.filter_eq_self.mpr ?_, List.map_map]
  · rfl
  · intro f hf
    obtain ⟨e, -, rfl⟩ := List.mem_map.mp hf
    rfl

/-- a malformed position that is not declared is ignored, which is a warning -/
theorem errors_undeclared : Finding.errors
    (p.positions.entries.flatMap fun e => checkUndeclared s.positions e.1 e.2) = [] := by
  rw [Finding.errors_eq_nil_iff]
  intro f hf
  obtain ⟨e, -, hf⟩ := List.mem_flatMap.mp hf
  unfold checkUndeclared at hf
  grind [Finding.isWarning]

theorem warnings_check (policy : Policy) :
    (p.check s policy).warnings = (p.check s .lenient).warnings := by
  cases policy with
  | lenient => rfl
  | strict =>
    rw [check_eq, check_eq, findings, findings, findings_flags_strict, findings_flags_lenient]
    simp only [Finding.warnings_append, warnings_flags]
    rfl

/-- the strict policy adds an error for each malformed switch, behind the errors there are anyway -/
theorem errors_strict : (p.check s .strict).errors = (p.check s .lenient).errors ++
    (p.malformedFlags s).map fun e => (Finding.flagMalformed e.1 e.2).message := by
  rw [check_eq, check_eq, findings, findings, findings_flags_strict, findings_flags_lenient]
  simp only [Finding.errors_append, errors_flags, errors_undeclared, List.append_nil]

theorem malformedFlags_settleFlags : (p.settleFlags s).malformedFlags s = [] := by
  refine List.eq_nil_iff_forall_not_mem.mpr fun e he => ?_
  obtain ⟨b, hb⟩ := known_of_settleFlags (mem_malformedFlags_iff.mp he).2
  cases hb

/-- The two policies give the same warnings. The strict errors are the lenient ones and behind them
one for each declared switch that is malformed, by ascending key. After the switches are settled,
the strict check finds what the lenient one found before. -/
theorem check_policies (p : Params) (s : Schema) :
    (p.check s .strict).warnings = (p.check s .lenient).warnings ∧
      (∃ flags : List (String × Json), Dict.Ascending flags ∧
        (∀ name v, (name, v) ∈ flags ↔
          (s.visibility.get? name).isSome = true ∧ p.visibility.get? name = some (.malformed v)) ∧
        (p.check s .strict).errors = (p.check s .lenient).errors ++
          flags.map fun e => s!"Visibility \"{e.1}\" must be a boolean (got {e.2.compact})") ∧
      (p.settleFlags s).check s .strict = p.check s .lenient := by
  refine ⟨warnings_check p s .strict, ?errors, ?settled⟩
  case errors =>
    exact ⟨p.malformedFlags s, ascending_malformedFlags p s, fun _ _ => mem_malformedFlags_iff,
      errors_strict p s⟩
  case settled =>
    have hwarnings : ((p.settleFlags s).check s .strict).warnings = (p.check s .lenient).warnings :=
      warnings_check (p.settleFlags s) s .strict
    have herrors : ((p.settleFlags s).check s .strict).errors = (p.check s .lenient).errors := by
      rw [errors_strict, malformedFlags_settleFlags, List.map_nil, List.append_nil,
        check_settleFlags]
    calc (p.settleFlags s).check s .strict
        = ⟨((p.settleFlags s).check s .strict).warnings,
            ((p.settleFlags s).check s .strict).errors⟩ := rfl
      _ = p.check s .lenient := by rw [hwarnings, herrors]

end Params

end Figures
