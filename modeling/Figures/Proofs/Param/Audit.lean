import Figures.Proofs.Param.Merged

/-!
# Presets that keep their own rules

* `Schema.Audited`              no preset breaks a rule, and those of positions are finite
* `labelFaults_eq_nil_iff`, …   what the rules of presets say
* `checkLabel_preset`, …        what a check finds at such a preset: nothing, unless it is absent or
  blank
* `Schema.unmet`                what it finds in parameters of which the caller gives none
* `Finding.Eased`               some errors fewer, and the same warnings
* `Params.eased_merge`          filling up with such presets leaves less to be found
* `Params.check_presets_iff`    a check of the presets alone reports entries without a preset only,
                                if and only if no required entry has a blank one
* `Params.check_merge_eased`    a check reports no more after filling up than before

The rules of a preset say nothing about blanks. A required text of blanks keeps them all, and a
check takes it for missing.
-/

namespace Figures

namespace Schema

/-- no preset breaks a rule, and those of positions are finite -/
structure Audited (s : Schema) : Prop where
  faultless : s.presetFaults = []
  finite : ∀ name spec point, s.positions.get? name = some spec → spec.preset = some point →
    point.isFinite = true

/-- `f` reports a required entry for which the schema has no preset -/
inductive Bare (s : Schema) : Finding → Prop
  | label {name : String} {spec : LabelSpec} (declared : s.labels.get? name = some spec)
    (required : spec.required = true) (absent : spec.preset = none) : Bare s (.labelMissing name)
  | value {name : String} {spec : ValueSpec} (declared : s.values.get? name = some spec)
    (required : spec.required = true) (absent : spec.preset = none) : Bare s (.valueMissing name)
  | position {name : String} {spec : PositionSpec} (declared : s.positions.get? name = some spec)
    (required : spec.required = true) (absent : spec.preset = none) : Bare s (.positionMissing name)

/-- `f` reports a required label or value with a preset of blanks -/
inductive Blank (s : Schema) : Finding → Prop
  | label {name text : String} {spec : LabelSpec} (declared : s.labels.get? name = some spec)
    (required : spec.required = true) (preset : spec.preset = some text)
    (blank : Text.isBlank text = true) : Blank s (.labelMissing name)
  | value {name : String} {v : Setting} {spec : ValueSpec}
    (declared : s.values.get? name = some spec)
    (required : spec.required = true) (preset : spec.preset = some v) (blank : v.isBlank = true) :
    Blank s (.valueMissing name)

/-- what is found in parameters of which the caller gives none -/
def unmet (s : Schema) : List Finding :=
  s.labels.entries.flatMap (fun e =>
      ifRequired (e.2.required && e.2.preset.all Text.isBlank) (.labelMissing e.1)) ++
    s.values.entries.flatMap (fun e =>
      ifRequired (e.2.required && e.2.preset.all Setting.isBlank) (.valueMissing e.1)) ++
    s.positions.entries.flatMap (fun e =>
      ifRequired (e.2.required && e.2.preset.isNone) (.positionMissing e.1))

/-! ### what the rules of presets say -/

section
variable {name : String}

theorem labelFaults_eq_nil_iff {spec : LabelSpec} : labelFaults name spec = [] ↔
    ∀ text most, spec.preset = some text → spec.maxLength = some most →
    text.toList.length ≤ most := by
  rw [labelFaults]
  cases spec.preset with
  | none => exact iff_of_true rfl nofun
  | some text =>
    cases spec.maxLength with
    | none => exact iff_of_true rfl nofun
    | some most =>
      dsimp only
      rw [ite_eq_right_iff]
      constructor
      · rintro hlong _ _ ⟨⟩ ⟨⟩
        exact Nat.not_lt.mp fun h => absurd (hlong h) (List.cons_ne_nil _ _)
      · exact fun hfits hlong => absurd (hfits text most rfl rfl) (Nat.not_le.mpr hlong)

theorem valueFaults_eq_nil_iff {spec : ValueSpec} : valueFaults name spec = [] ↔
    ∀ v, spec.kind = .number → spec.preset = some v →
      ∃ x, v.number? = some x ∧ spec.admits x = true := by
  rw [valueFaults.eq_def]
  cases spec.kind with
  | text => exact iff_of_true rfl nofun
  | number =>
    cases spec.preset with
    | none => exact iff_of_true rfl nofun
    | some v =>
      dsimp only
      cases hx : v.number? with
      | none =>
        refine iff_of_false (List.cons_ne_nil _ _) fun hread => ?_
        obtain ⟨x, hx', -⟩ := hread v rfl rfl
        rw [hx] at hx'
        cases hx'
      | some x =>
        dsimp only
        rw [ite_eq_left_iff]
        constructor
        · rintro hbroken _ - ⟨⟩
          exact ⟨x, hx, of_not_not fun h => absurd (hbroken h) (List.cons_ne_nil _ _)⟩
        · intro hread hbroken
          obtain ⟨y, hy, hadmits⟩ := hread v rfl rfl
          rw [hx] at hy
          cases hy
          exact absurd hadmits hbroken

theorem positionFaults_eq_nil_iff {spec : PositionSpec} : positionFaults name spec = [] ↔
    ∀ point, spec.preset = some point → spec.normalized = true → point.inUnitSquare = true := by
  rw [positionFaults]
  cases spec.preset with
  | none => exact iff_of_true rfl nofun
  | some point =>
    dsimp only
    rw [ite_eq_right_iff, Bool.and_eq_true, Bool.not_eq_true']
    constructor
    · rintro houtside _ ⟨⟩ hnormalized
      exact Bool.of_not_eq_false fun h => absurd (houtside ⟨hnormalized, h⟩) (List.cons_ne_nil _ _)
    · rintro hinside ⟨hnormalized, houtside⟩
      rw [hinside point rfl hnormalized] at houtside
      cases houtside

end

namespace Audited

variable {s : Schema} (h : s.Audited)
include h

theorem label {e : String × LabelSpec} (he : e ∈ s.labels.entries) : labelFaults e.1 e.2 = [] := by
  have hfaults := h.faultless
  simp only [presetFaults, List.append_eq_nil_iff, List.flatMap_eq_nil_iff] at hfaults
  exact hfaults.1.1 e he

theorem value {e : String × ValueSpec} (he : e ∈ s.values.entries) : valueFaults e.1 e.2 = [] := by
  have hfaults := h.faultless
  simp only [presetFaults, List.append_eq_nil_iff, List.flatMap_eq_nil_iff] at hfaults
  exact hfaults.1.2 e he

theorem position {e : String × PositionSpec} (he : e ∈ s.positions.entries) :
    positionFaults e.1 e.2 = [] := by
  have hfaults := h.faultless
  simp only [presetFaults, List.append_eq_nil_iff, List.flatMap_eq_nil_iff] at hfaults
  exact hfaults.2 e he

theorem point {e : String × PositionSpec} (he : e ∈ s.positions.entries) {point : Point}
    (hpoint : e.2.preset = some point) : point.isFinite = true :=
  h.finite e.1 e.2 point (Dict.get?_eq_some_iff.mpr he) hpoint

end Audited

end Schema

/-! ### what is found at a preset -/

section
variable {name : String}

theorem checkLabel_preset {spec : LabelSpec} (hfaults : Schema.labelFaults name spec = []) :
    checkLabel name spec spec.preset
      = ifRequired (spec.required && spec.preset.all Text.isBlank) (.labelMissing name) := by
  cases hpreset : spec.preset with
  | none =>
    rw [Option.all_none, Bool.and_true]
    rfl
  | some text =>
    rw [Option.all_some]
    cases hblank : Text.isBlank text with
    | true =>
      rw [checkLabel_of_missing fun _ heq => Option.some.inj heq ▸ hblank, Bool.and_true]
    | false =>
      have hfits := fun most => Schema.labelFaults_eq_nil_iff.mp hfaults text most hpreset
      rw [checkLabel_of_fits hblank hfits, Bool.and_false]
      rfl

theorem checkValue_preset {spec : ValueSpec} (hfaults : Schema.valueFaults name spec = []) :
    checkValue name spec spec.preset
      = ifRequired (spec.required && spec.preset.all Setting.isBlank) (.valueMissing name) := by
  cases hpreset : spec.preset with
  | none =>
    rw [Option.all_none, Bool.and_true]
    rfl
  | some v =>
    rw [Option.all_some]
    cases hblank : v.isBlank with
    | true =>
      rw [checkValue_of_missing fun _ heq => Option.some.inj heq ▸ hblank, Bool.and_true]
    | false =>
      have hadmits := fun hkind => Schema.valueFaults_eq_nil_iff.mp hfaults v hkind hpreset
      rw [checkValue_of_admits hblank hadmits, Bool.and_false]
      rfl

theorem checkPosition_preset {spec : PositionSpec} (hfaults : Schema.positionFaults name spec = [])
    (hfinite : ∀ point, spec.preset = some point → point.isFinite = true) :
    checkPosition name spec (spec.preset.map .known)
      = ifRequired (spec.required && spec.preset.isNone) (.positionMissing name) := by
  cases hpreset : spec.preset with
  | none =>
    rw [Option.isNone_none, Bool.and_true]
    rfl
  | some point =>
    have hpoint : (Position.known point).point? = some point := if_pos (hfinite point hpreset)
    have hplaced := Schema.positionFaults_eq_nil_iff.mp hfaults point hpreset
    rw [Option.isNone_some, Bool.and_false, Option.map_some, checkPosition_of_placed hpoint hplaced]
    rfl

/-- the preset of a switch is never malformed -/
theorem checkFlag_preset (policy : Policy) (spec : FlagSpec) :
    checkFlag policy name (spec.preset.map .known) = [] := by
  cases policy <;> cases spec.preset <;> rfl

end

/-! ### what no preset prevents -/

namespace Finding

theorem head?_append {front : String} {c : Char} (h : front.toList.head? = some c) (s t : String) :
    (front ++ s ++ t).toList.head? = some c := by
  rw [String.toList_append, String.toList_append, List.append_assoc, List.head?_append, h]
  rfl

/-- texts with other initials are other texts -/
theorem ne_of_head? {s t : String} {c d : Char} (hs : s.toList.head? = some c)
    (ht : t.toList.head? = some d) (hne : c ≠ d) : s ≠ t := by
  rintro rfl
  exact hne (Option.some.inj (hs.symm.trans ht))

theorem head?_labelMissing (name : String) : (labelMissing name).message.toList.head? = some 'L' :=
  head?_append rfl _ _

theorem head?_valueMissing (name : String) : (valueMissing name).message.toList.head? = some 'V' :=
  head?_append rfl _ _

theorem head?_positionMissing (name : String) :
    (positionMissing name).message.toList.head? = some 'P' := head?_append rfl _ _

end Finding

namespace Schema

variable {s : Schema} {f g : Finding}

/-- a message does not report two different entries as missing -/
theorem Blank.eq_of_message (hf : s.Blank f) (hg : s.Bare g)
    (h : f.message = g.message) : f = g := by
  cases hf with
  | label =>
    cases hg with
    | label =>
      exact congrArg Finding.labelMissing
        ((String.append_right_inj _).mp ((String.append_left_inj _).mp h))
    | value =>
      exact absurd h (Finding.ne_of_head? (Finding.head?_labelMissing _)
        (Finding.head?_valueMissing _) (by decide))
    | position =>
      exact absurd h (Finding.ne_of_head? (Finding.head?_labelMissing _)
        (Finding.head?_positionMissing _) (by decide))
  | value =>
    cases hg with
    | label =>
      exact absurd h (Finding.ne_of_head? (Finding.head?_valueMissing _)
        (Finding.head?_labelMissing _) (by decide))
    | value =>
      exact congrArg Finding.valueMissing
        ((String.append_right_inj _).mp ((String.append_left_inj _).mp h))
    | position =>
      exact absurd h (Finding.ne_of_head? (Finding.head?_valueMissing _)
        (Finding.head?_positionMissing _) (by decide))

theorem Blank.not_bare (hf : s.Blank f) : ¬ s.Bare f := by
  cases hf with
  | label declared required preset blank =>
    intro hbare
    cases hbare with
    | label declared' required' absent =>
      rw [declared, Option.some.injEq] at declared'
      rw [← declared', preset] at absent
      cases absent
  | value declared required preset blank =>
    intro hbare
    cases hbare with
    | value declared' required' absent =>
      rw [declared, Option.some.injEq] at declared'
      rw [← declared', preset] at absent
      cases absent

/-- no preset prevents that an entry is reported if there is none, or a blank one -/
theorem mem_unmet_iff : f ∈ s.unmet ↔ s.Bare f ∨ s.Blank f := by
  simp only [unmet, List.mem_append, List.mem_flatMap, mem_ifRequired_iff, Bool.and_eq_true]
  constructor
  · rintro ((⟨e, he, ⟨hrequired, hblank⟩, rfl⟩ | ⟨e, he, ⟨hrequired, hblank⟩, rfl⟩) |
      ⟨e, he, ⟨hrequired, habsent⟩, rfl⟩)
    · have hspec := Dict.get?_eq_some_iff.mpr he
      cases hpreset : e.2.preset with
      | none => exact .inl (.label hspec hrequired hpreset)
      | some text =>
        rw [hpreset] at hblank
        exact .inr (.label hspec hrequired hpreset hblank)
    · have hspec := Dict.get?_eq_some_iff.mpr he
      cases hpreset : e.2.preset with
      | none => exact .inl (.value hspec hrequired hpreset)
      | some v =>
        rw [hpreset] at hblank
        exact .inr (.value hspec hrequired hpreset hblank)
    · exact .inl (.position (Dict.get?_eq_some_iff.mpr he) hrequired
        (Option.isNone_iff_eq_none.mp habsent))
  · rintro (hbare | hblank)
    · cases hbare with
      | label declared required absent =>
        exact .inl (.inl ⟨_, Dict.get?_eq_some_iff.mp declared,
          ⟨required, by rw [absent]; rfl⟩, rfl⟩)
      | value declared required absent =>
        exact .inl (.inr ⟨_, Dict.get?_eq_some_iff.mp declared,
          ⟨required, by rw [absent]; rfl⟩, rfl⟩)
      | position declared required absent =>
        exact .inr ⟨_, Dict.get?_eq_some_iff.mp declared, ⟨required, by rw [absent]; rfl⟩, rfl⟩
    · cases hblank with
      | label declared required preset blank =>
        exact .inl (.inl ⟨_, Dict.get?_eq_some_iff.mp declared,
          ⟨required, by rw [preset]; exact blank⟩, rfl⟩)
      | value declared required preset blank =>
        exact .inl (.inr ⟨_, Dict.get?_eq_some_iff.mp declared,
          ⟨required, by rw [preset]; exact blank⟩, rfl⟩)

theorem isWarning_of_mem_unmet (hf : f ∈ s.unmet) : f.isWarning = false := by
  rcases mem_unmet_iff.mp hf with hbare | hblank
  · cases hbare <;> rfl
  · cases hblank <;> rfl

end Schema

/-! ### fewer errors -/

namespace Finding

/-- the list `fs` has some errors fewer than `gs`, and the same warnings -/
structure Eased (fs gs : List Finding) : Prop where
  sublist : fs.Sublist gs
  warnings : fs.filter isWarning = gs.filter isWarning

variable {fs gs : List Finding}

theorem Eased.refl (fs : List Finding) : Eased fs fs := ⟨List.Sublist.refl fs, rfl⟩

theorem Eased.append {fs' gs' : List Finding} (h : Eased fs gs) (h' : Eased fs' gs') :
    Eased (fs ++ fs') (gs ++ gs') :=
  ⟨h.sublist.append h'.sublist,
    by rw [List.filter_append, List.filter_append, h.warnings, h'.warnings]⟩

theorem Eased.flatMap {α : Type} {l : List α} {g u : α → List Finding}
    (h : ∀ a ∈ l, Eased (g a) (u a)) : Eased (l.flatMap g) (l.flatMap u) := by
  induction l with
  | nil => exact .refl []
  | cons a l ih =>
    obtain ⟨ha, hl⟩ := List.forall_mem_cons.mp h
    exact ha.append (ih hl)

/-- an error is asked for under more conditions -/
theorem Eased.ifRequired {f : Finding} (herror : f.isWarning = false) (required bare : Bool) :
    Eased (ifRequired (required && bare) f) (ifRequired required f) := by
  cases bare with
  | true =>
    rw [Bool.and_true]
    exact .refl _
  | false =>
    rw [Bool.and_false]
    refine ⟨List.nil_sublist _, ?_⟩
    cases required with
    | false => rfl
    | true =>
      show [] = [f].filter isWarning
      rw [List.filter_singleton, herror]
      rfl

/-- a preset that is put in eases what is found where nothing is given -/
theorem Eased.or_preset {α : Type} {check : Option α → List Finding} {preset : Option α}
    {f : Finding} {required bare : Bool} (herror : f.isWarning = false)
    (hnone : check none = Figures.ifRequired required f)
    (hpreset : check preset = Figures.ifRequired (required && bare) f) (given : Option α) :
    Eased (check (given.or preset)) (check given) := by
  cases given with
  | some v => exact .refl _
  | none =>
    rw [Option.none_or, hpreset, hnone]
    exact .ifRequired herror required bare

theorem Eased.errors (h : Eased fs gs) : (errors fs).Sublist (errors gs) :=
  (h.sublist.filter _).map _

end Finding

namespace Params

variable {s : Schema}

/-- positions that are put in are declared, so the run through those that are not does not look at
them -/
theorem undeclared_merge (p : Params) (s : Schema) :
    (p.merge s).positions.entries.flatMap (fun e => checkUndeclared s.positions e.1 e.2)
      = p.positions.entries.flatMap fun e => checkUndeclared s.positions e.1 e.2 := by
  refine Dict.flatMap_congr fun k => ?_
  cases hspec : s.positions.get? k with
  | none => exact .inl (by rw [(filledFrom_merge p s).positions, hspec]; exact Option.or_none)
  | some spec => exact .inr (checkUndeclared_of_declared hspec)

theorem findings_presets (h : s.Audited) (policy : Policy) :
    (({} : Params).merge s).findings s policy = s.unmet := by
  have hlabels : s.labels.entries.flatMap (fun e =>
      checkLabel e.1 e.2 ((({} : Params).merge s).labels.get? e.1)) = s.labels.entries.flatMap
        fun e => ifRequired (e.2.required && e.2.preset.all Text.isBlank) (.labelMissing e.1) := by
    refine List.flatMap_congr fun e he => ?_
    rw [merge, Dict.get?_fill_of_mem he]
    exact checkLabel_preset (h.label he)
  have hvalues : s.values.entries.flatMap (fun e =>
      checkValue e.1 e.2 ((({} : Params).merge s).values.get? e.1)) = s.values.entries.flatMap
        fun e => ifRequired (e.2.required && e.2.preset.all Setting.isBlank)
          (.valueMissing e.1) := by
    refine List.flatMap_congr fun e he => ?_
    rw [merge, Dict.get?_fill_of_mem he]
    exact checkValue_preset (h.value he)
  have hpositions : s.positions.entries.flatMap (fun e =>
      checkPosition e.1 e.2 ((({} : Params).merge s).positions.get? e.1)) =
        s.positions.entries.flatMap
        fun e => ifRequired (e.2.required && e.2.preset.isNone) (.positionMissing e.1) := by
    refine List.flatMap_congr fun e he => ?_
    rw [merge, Dict.get?_fill_of_mem he]
    exact checkPosition_preset (h.position he) fun _ => h.point he
  have hflags : s.visibility.entries.flatMap (fun e =>
      checkFlag policy e.1 ((({} : Params).merge s).visibility.get? e.1)) = [] := by
    refine List.flatMap_eq_nil_iff.mpr fun e he => ?_
    rw [merge, Dict.get?_fill_of_mem he]
    exact checkFlag_preset policy e.2
  rw [findings, hlabels, hvalues, hpositions, hflags, undeclared_merge, List.append_nil]
  exact List.append_nil _

theorem check_presets (h : s.Audited) (policy : Policy) :
    (({} : Params).merge s).check s policy = ⟨[], s.unmet.map Finding.message⟩ := by
  have hwarnings : s.unmet.filter Finding.isWarning = [] :=
    List.filter_eq_nil_iff.mpr fun f hf => by rw [Schema.isWarning_of_mem_unmet hf]; decide
  have herrors : s.unmet.filter (fun f => !f.isWarning) = s.unmet :=
    List.filter_eq_self.mpr fun f hf => by rw [Schema.isWarning_of_mem_unmet hf]; rfl
  rw [check_eq, findings_presets h, Finding.warnings, Finding.errors, hwarnings, herrors]
  rfl

/-- If no preset breaks a rule, a check of the presets alone reports no warning, and as errors the
required labels and values whose preset is absent or blank and the required positions without a
preset. So it reports entries without a preset only, if and only if no required entry has a blank
one. -/
theorem check_presets_iff (s : Schema) (policy : Policy) (h : s.Audited) :
    (({} : Params).merge s).check s policy = ⟨[], s.unmet.map Finding.message⟩ ∧
      ((∀ m ∈ ((({} : Params).merge s).check s policy).errors, ∃ f, s.Bare f ∧ m = f.message) ↔
        ¬ ∃ f, s.Blank f) := by
  have hcheck := check_presets h policy
  refine ⟨hcheck, ?_⟩
  rw [hcheck]
  constructor
  · rintro hbare ⟨f, hblank⟩
    have hf : f.message ∈ s.unmet.map Finding.message :=
      List.mem_map_of_mem (Schema.mem_unmet_iff.mpr (.inr hblank))
    obtain ⟨g, hg, hmessage⟩ := hbare f.message hf
    exact hblank.not_bare (hblank.eq_of_message hg hmessage ▸ hg)
  · intro hnone m hm
    obtain ⟨f, hf, rfl⟩ := List.mem_map.mp hm
    exact ⟨f, (Schema.mem_unmet_iff.mp hf).resolve_right fun hblank => hnone ⟨f, hblank⟩, rfl⟩

/-- two labels and a position, all required; the second label has no preset -/
def labelled : Schema :=
  ((({} : Schema).label "A" { preset := some "P", required := true, maxLength := some 3 }).label "B"
    { required := true }).position "O"
      { preset := some ⟨0.5, 0.5⟩, required := true, normalized := true }

theorem audited_labelled : labelled.Audited where
  faultless := by decide
  finite name spec point hspec hpreset := by
    have hentries : labelled.positions.entries
        = [("O", { preset := some ⟨0.5, 0.5⟩, required := true, normalized := true })] := rfl
    have hmem := Dict.mem_of_get? hspec
    rw [hentries, List.mem_singleton] at hmem
    obtain ⟨rfl, rfl⟩ := Prod.mk.inj hmem
    obtain rfl := Option.some.inj hpreset
    decide

theorem check_presets_iff_labelled :
    labelled.Audited ∧
      (({} : Params).merge labelled).check labelled .strict = ⟨[], ["Label \"B\" is required"]⟩ ∧
      labelled.Bare (.labelMissing "B") ∧ ¬ ∃ f, labelled.Blank f := by
  obtain ⟨hcheck, hiff⟩ := check_presets_iff labelled .strict audited_labelled
  have herrors : (({} : Params).merge labelled).check labelled .strict
      = ⟨[], ["Label \"B\" is required"]⟩ := hcheck.trans (by rfl)
  have hbare : labelled.Bare (.labelMissing "B") := .label rfl rfl rfl
  refine ⟨audited_labelled, herrors, hbare, hiff.mp ?_⟩
  rw [herrors]
  exact List.forall_mem_singleton.mpr ⟨_, hbare, rfl⟩

def blanked : Schema := ({} : Schema).label "A" { preset := some "  ", required := true }

/-- no preset of it breaks a rule, and yet it is reported as if there were none -/
theorem blank_preset_reported :
    blanked.Audited ∧ ¬ ∀ m ∈ ((({} : Params).merge blanked).check blanked .strict).errors,
      ∃ f, blanked.Bare f ∧ m = f.message := by
  refine ⟨⟨rfl, nofun⟩, fun hbare => ?_⟩
  have herrors : ((({} : Params).merge blanked).check blanked .strict).errors
      = ["Label \"A\" is required"] := by decide
  obtain ⟨f, hf, hmessage⟩ := hbare "Label \"A\" is required" (herrors ▸ List.mem_cons_self)
  have hblank : blanked.Blank (.labelMissing "A") := .label rfl rfl rfl (by decide)
  exact hblank.not_bare (hblank.eq_of_message hf hmessage ▸ hf)

/-- filling up with presets that keep their rules leaves less to be found -/
theorem eased_merge (h : s.Audited) (p : Params) (policy : Policy) :
    Finding.Eased ((p.merge s).findings s policy) (p.findings s policy) := by
  have hlabel : ∀ e ∈ s.labels.entries, Finding.Eased
      (checkLabel e.1 e.2 ((p.merge s).labels.get? e.1))
        (checkLabel e.1 e.2 (p.labels.get? e.1)) := by
    intro e he
    rw [merge, Dict.get?_fill_of_mem he]
    exact .or_preset rfl rfl (checkLabel_preset (h.label he)) _
  have hvalue : ∀ e ∈ s.values.entries, Finding.Eased
      (checkValue e.1 e.2 ((p.merge s).values.get? e.1))
        (checkValue e.1 e.2 (p.values.get? e.1)) := by
    intro e he
    rw [merge, Dict.get?_fill_of_mem he]
    exact .or_preset rfl rfl (checkValue_preset (h.value he)) _
  have hposition : ∀ e ∈ s.positions.entries, Finding.Eased
      (checkPosition e.1 e.2 ((p.merge s).positions.get? e.1))
      (checkPosition e.1 e.2 (p.positions.get? e.1)) := by
    intro e he
    rw [merge, Dict.get?_fill_of_mem he]
    exact .or_preset rfl rfl (checkPosition_preset (h.position he) fun _ => h.point he) _
  have hflag : ∀ e ∈ s.visibility.entries, Finding.Eased
      (checkFlag policy e.1 ((p.merge s).visibility.get? e.1))
      (checkFlag policy e.1 (p.visibility.get? e.1)) := by
    intro e he
    rw [merge, Dict.get?_fill_of_mem he]
    cases p.visibility.get? e.1 with
    | some flag => exact .refl _
    | none =>
      rw [Option.none_or, checkFlag_preset]
      cases policy <;> exact .refl _
  rw [findings, findings, undeclared_merge]
  exact (((Finding.Eased.flatMap hlabel).append (.flatMap hvalue)).append
    (.flatMap hposition)).append (.flatMap hflag) |>.append (.refl _)

/-- If no preset breaks a rule, a check of parameters that are filled up reports the same warnings
as before, and of the errors it reports some, in the same order. -/
theorem check_merge_eased (p : Params) (s : Schema) (policy : Policy) (h : s.Audited) :
    ((p.merge s).check s policy).errors.Sublist (p.check s policy).errors ∧
      ((p.merge s).check s policy).warnings = (p.check s policy).warnings := by
  have heased := eased_merge h p policy
  rw [check_eq, check_eq]
  exact ⟨heased.errors, congrArg (List.map Finding.message) heased.warnings⟩

def wordy : Params := ({} : Params).withLabel "A" "PQRS"

/-- the label is still reported as too long -/
theorem check_merge_eased_wordy :
    labelled.Audited ∧
      ((wordy.merge labelled).check labelled .strict).errors.Sublist
        (wordy.check labelled .strict).errors ∧
      ((wordy.merge labelled).check labelled .strict).warnings
        = ["Label \"A\" exceeds max length of 3 (got 4)"] := by
  obtain ⟨herrors, hwarnings⟩ := check_merge_eased wordy labelled .strict audited_labelled
  exact ⟨audited_labelled, herrors, hwarnings.trans (by decide)⟩

end Params

end Figures
