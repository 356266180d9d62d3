import Figures.Proofs.Param.Checked

/-!
# What a template may rely on

* `Dict.Filled`            what is given is still there, and so is every preset that was lacking
* `Params.Supplied`        what a template may rely on in its labels, values and positions
* `Params.Switched`        what it may rely on in its switches
* `Params.Prepared`        both
* `Params.present_of_checkLabel`, …   what there is at a key where no error is found
* `Params.supplied_merge`  what is filled up and checked can be relied on
* `Params.switched_strict`, `switched_lenient`   so can switches that are checked, and those that
  are settled
-/

namespace Figures

namespace Dict

variable {α β : Type}

/-- the dictionary `filled` holds what is given, and at every other key with a preset that preset -/
def Filled (given filled : Dict α) (specs : Dict β) (preset : β → Option α) : Prop :=
  (∀ k v, given.get? k = some v → filled.get? k = some v) ∧
  (∀ k spec v, specs.get? k = some spec → preset spec = some v →
    filled.get? k = some ((given.get? k).getD v))

theorem filled_fill (given : Dict α) (specs : Dict β) (preset : β → Option α) :
    given.Filled (given.fill specs preset) specs preset :=
  ⟨fun k v h => by rw [get?_fill, h, Option.some_or],
    fun _ _ _ hspec hpreset => get?_fill_of_preset hspec hpreset⟩

theorem get?_mapValues (f : String → α → β) (d : Dict α) (k : String) :
    (d.mapValues f).get? k = (d.get? k).map (f k) := by
  show (d.entries.map fun e => (e.1, f e.1 e.2)).lookup k = (d.entries.lookup k).map (f k)
  induction d.entries with
  | nil => rfl
  | cons e l ih =>
    rw [List.map_cons, List.lookup_cons, List.lookup_cons]
    cases hk : k == e.1 with
    | false => exact ih
    | true =>
      rw [eq_of_beq hk]
      rfl

end Dict

namespace Params

/-- What a template may rely on in the labels, values and positions of `q` that it gets for the
parameters `p` of a caller: presets are filled in and nothing is put in the place of what the caller
gave; what is required is there; numbers and points that are declared can be read as such. -/
structure Supplied (s : Schema) (p q : Params) : Prop where
  labels_filled : p.labels.Filled q.labels s.labels LabelSpec.preset
  values_filled : p.values.Filled q.values s.values ValueSpec.preset
  positions_filled : p.positions.Filled q.positions s.positions fun spec => spec.preset.map .known
  label_present : ∀ name spec, s.labels.get? name = some spec → spec.required = true →
    ∃ text, q.labels.get? name = some text ∧ Text.isBlank text = false
  value_present : ∀ name spec, s.values.get? name = some spec → spec.required = true →
    ∃ v, q.values.get? name = some v ∧ v.isBlank = false
  number_read : ∀ name spec v, s.values.get? name = some spec → spec.kind = .number →
    q.values.get? name = some v → v.isBlank = false → (q.number? name).isSome = true
  position_present : ∀ name spec, s.positions.get? name = some spec → spec.required = true →
    (q.positions.get? name).isSome = true
  point_read : ∀ name spec, s.positions.get? name = some spec →
    (q.positions.get? name).isSome = true → (q.point? name).isSome = true

/-- What it may rely on in the switches: those with a preset are there, those that the caller gave
well are kept, and those that are declared are known. Under the lenient policy all are known: a
malformed one has become its preset, or off. -/
structure Switched (s : Schema) (policy : Policy) (p q : Params) : Prop where
  flags_filled : ∀ name spec, s.visibility.get? name = some spec → spec.preset.isSome = true →
    (q.visibility.get? name).isSome = true
  flags_kept : ∀ name b, p.visibility.get? name = some (.known b) →
    q.visibility.get? name = some (.known b)
  flag_known : ∀ name spec f, s.visibility.get? name = some spec → q.visibility.get? name = some f →
    ∃ b, f = .known b
  flags_settled : policy = .lenient →
    (∀ name f, q.visibility.get? name = some f → ∃ b, f = .known b) ∧
    (∀ name v, p.visibility.get? name = some (.malformed v) →
      q.visibility.get? name
        = some (.known ((s.visibility.get? name >>= FlagSpec.preset).getD false)))

/-- what a template may rely on in the parameters `q` that it gets for the parameters `p` -/
structure Prepared (s : Schema) (policy : Policy) (p q : Params) : Prop
  extends Supplied s p q, Switched s policy p q

variable {p : Params} {s : Schema} {policy : Policy} {name : String}

/-! ### what is found at one key -/

theorem exists_of_filter {α : Type} {given : Option α} {blank : α → Bool}
    (h : given.filter (fun v => !blank v) ≠ none) : ∃ v, given = some v ∧ blank v = false := by
  obtain ⟨v, hfilter⟩ := Option.ne_none_iff_exists'.mp h
  obtain ⟨hgiven, hblank⟩ := Option.filter_eq_some_iff.mp hfilter
  exact ⟨v, hgiven, by simpa using hblank⟩

theorem present_of_checkLabel {spec : LabelSpec} {given : Option String}
    (hwarned : ∀ f ∈ checkLabel name spec given, f.isWarning = true)
    (hrequired : spec.required = true) :
    ∃ text, given = some text ∧ Text.isBlank text = false := by
  refine exists_of_filter fun hnone => ?_
  have hmissing : checkLabel name spec given = [.labelMissing name] := by
    rw [checkLabel, hnone]
    exact if_pos hrequired
  rw [hmissing] at hwarned
  exact Bool.false_ne_true (hwarned _ List.mem_cons_self)

theorem present_of_checkValue {spec : ValueSpec} {given : Option Setting}
    (hwarned : ∀ f ∈ checkValue name spec given, f.isWarning = true)
    (hrequired : spec.required = true) : ∃ v, given = some v ∧ v.isBlank = false := by
  refine exists_of_filter fun hnone => ?_
  have hmissing : checkValue name spec given = [.valueMissing name] := by
    rw [checkValue, hnone]
    exact if_pos hrequired
  rw [hmissing] at hwarned
  exact Bool.false_ne_true (hwarned _ List.mem_cons_self)

theorem present_of_checkPosition {spec : PositionSpec} {given : Option Position}
    (hwarned : ∀ f ∈ checkPosition name spec given, f.isWarning = true)
    (hrequired : spec.required = true) : given.isSome = true := by
  cases given with
  | some position => rfl
  | none =>
    have hmissing : checkPosition name spec none = [.positionMissing name] := if_pos hrequired
    rw [hmissing] at hwarned
    exact absurd (hwarned _ List.mem_cons_self) Bool.false_ne_true

theorem point_of_checkPosition {spec : PositionSpec} {position : Position}
    (hwarned : ∀ f ∈ checkPosition name spec (some position), f.isWarning = true) :
    position.point?.isSome = true := by
  cases hpoint : position.point? with
  | some point => rfl
  | none =>
    have hmalformed : checkPosition name spec (some position) = [.positionMalformed name] := by
      rw [checkPosition, hpoint]
    rw [hmalformed] at hwarned
    exact absurd (hwarned _ List.mem_cons_self) Bool.false_ne_true

theorem known_of_checkFlag {flag : Flag}
    (hwarned : ∀ f ∈ checkFlag .strict name (some flag), f.isWarning = true) :
    ∃ b, flag = .known b := by
  cases flag with
  | known b => exact ⟨b, rfl⟩
  | malformed v => exact absurd (hwarned (.flagMalformed name v) List.mem_cons_self) nofun

/-! ### behind a check -/

section
variable (hok : (p.check s policy).ok = true)
include hok

theorem warned_label {spec : LabelSpec} (hspec : s.labels.get? name = some spec) :
    ∀ f ∈ checkLabel name spec (p.labels.get? name), f.isWarning = true := by
  intro f hf
  refine warned_of_check hok ?_
  simp only [findings, List.mem_append, List.mem_flatMap]
  exact .inl (.inl (.inl (.inl ⟨(name, spec), Dict.mem_of_get? hspec, hf⟩)))

theorem warned_position {spec : PositionSpec} (hspec : s.positions.get? name = some spec) :
    ∀ f ∈ checkPosition name spec (p.positions.get? name), f.isWarning = true := by
  intro f hf
  refine warned_of_check hok ?_
  simp only [findings, List.mem_append, List.mem_flatMap]
  exact .inl (.inl (.inr ⟨(name, spec), Dict.mem_of_get? hspec, hf⟩))

theorem warned_flag {spec : FlagSpec} (hspec : s.visibility.get? name = some spec) :
    ∀ f ∈ checkFlag policy name (p.visibility.get? name), f.isWarning = true := by
  intro f hf
  refine warned_of_check hok ?_
  simp only [findings, List.mem_append, List.mem_flatMap]
  exact .inl (.inr ⟨(name, spec), Dict.mem_of_get? hspec, hf⟩)

theorem point?_of_check {spec : PositionSpec} (hspec : s.positions.get? name = some spec)
    (hthere : (p.positions.get? name).isSome = true) : (p.point? name).isSome = true := by
  obtain ⟨position, hposition⟩ := Option.isSome_iff_exists.mp hthere
  have hwarned := warned_position hok hspec
  rw [hposition] at hwarned
  rw [point?, hposition]
  exact point_of_checkPosition hwarned

end

/-! ### what a template gets -/

/-- what is filled up and checked can be relied on -/
theorem supplied_merge (hok : ((p.merge s).check s policy).ok = true) :
    Supplied s p (p.merge s) where
  labels_filled := Dict.filled_fill _ _ _
  values_filled := Dict.filled_fill _ _ _
  positions_filled := Dict.filled_fill _ _ _
  label_present _ _ hspec := present_of_checkLabel (warned_label hok hspec)
  value_present _ _ hspec := present_of_checkValue (warned_value hok hspec)
  number_read name spec v hspec hkind hv hblank := by
    rw [number?, hv]
    refine (number_or_blank_of_check hok hspec hkind hv).resolve_right fun h => ?_
    exact absurd h.1 (by rw [hblank]; decide)
  position_present _ _ hspec := present_of_checkPosition (warned_position hok hspec)
  point_read _ _ hspec := point?_of_check hok hspec

/-- switches are settled apart from all else -/
theorem Supplied.settleFlags {q : Params} (h : Supplied s p q) : Supplied s p (q.settleFlags s) :=
  ⟨h.labels_filled, h.values_filled, h.positions_filled, h.label_present, h.value_present,
    h.number_read, h.position_present, h.point_read⟩

theorem flags_filled_merge {spec : FlagSpec} (hspec : s.visibility.get? name = some spec)
    (hpreset : spec.preset.isSome = true) : ((p.merge s).visibility.get? name).isSome = true := by
  obtain ⟨b, hb⟩ := Option.isSome_iff_exists.mp hpreset
  rw [merge, Dict.get?_fill_of_preset hspec (by rw [hb]; rfl)]
  rfl

theorem flag_kept_merge {f : Flag} (hgiven : p.visibility.get? name = some f) :
    (p.merge s).visibility.get? name = some f :=
  (Dict.filled_fill p.visibility s.visibility _).1 name f hgiven

theorem switched_strict (hok : ((p.merge s).check s .strict).ok = true) :
    Switched s .strict p (p.merge s) where
  flags_filled _ _ := flags_filled_merge
  flags_kept _ _ := flag_kept_merge
  flag_known _ _ _ hspec hf := known_of_checkFlag (hf ▸ warned_flag hok hspec)
  flags_settled h := absurd h nofun

theorem get?_settleFlags (p : Params) (s : Schema) (name : String) :
    (p.settleFlags s).visibility.get? name = (p.visibility.get? name).map (settleFlag s name) :=
  Dict.get?_mapValues _ _ _

theorem known_of_settleFlags {q : Params} {f : Flag}
    (h : (q.settleFlags s).visibility.get? name = some f) : ∃ b, f = .known b := by
  rw [get?_settleFlags] at h
  obtain ⟨flag, -, rfl⟩ := Option.map_eq_some_iff.mp h
  cases flag with
  | known b => exact ⟨b, rfl⟩
  | malformed v => exact ⟨_, rfl⟩

/-- the lenient policy settles the malformed switches -/
theorem switched_lenient (p : Params) (s : Schema) :
    Switched s .lenient p ((p.merge s).settleFlags s) where
  flags_filled name spec hspec hpreset := by
    rw [get?_settleFlags, Option.isSome_map]
    exact flags_filled_merge hspec hpreset
  flags_kept name b hgiven := by
    rw [get?_settleFlags, flag_kept_merge hgiven]
    rfl
  flag_known _ _ _ _ := known_of_settleFlags
  flags_settled _ := by
    refine ⟨fun name f => known_of_settleFlags, fun name v hgiven => ?_⟩
    rw [get?_settleFlags, flag_kept_merge hgiven]
    rfl

end Params

end Figures
