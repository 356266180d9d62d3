import Figures.Proofs.Number.Order
import Figures.Proofs.Param.Checked

/-!
# What is found at one place

* `Part`, `Finding.place`       the map and the key that a finding is about
* `Finding.SameBut`             two lists of findings that are the same but for those at one place
* `Params.findingsAt`           what is found at one place
* `Params.AgreesBut`            parameters that are the same but at one place
* `Params.Supplies`             one of them lacks what is required there, the other one has it
* `Params.findings_sameBut`     what is found in them is the same but for what is found there
* `Params.check_local`          so are the errors and the warnings

A check goes through the schema map by map and key by key, and at the end through the positions that
are given. Each step looks at one place. The place splits the list it stands in; what comes before
and after it is found in both.
-/

namespace Figures

inductive Part where
  | labels
  | values
  | visibility
  | positions
  deriving Repr, DecidableEq

/-- what messages call an entry of a map -/
def Part.title : Part → String
  | .labels => "Label"
  | .values => "Value"
  | .visibility => "Visibility"
  | .positions => "Position"

namespace Finding

/-- the map and the key that a finding is about -/
def place : Finding → Part × String
  | labelMissing name | labelTooLong name _ _ => (.labels, name)
  | valueMissing name | valueNotNumber name _ | valueTooSmall name _ _ | valueTooLarge name _ _ =>
    (.values, name)
  | positionMissing name | positionMalformed name | positionOutside name _ | positionIgnored name =>
    (.positions, name)
  | flagMalformed name _ => (.visibility, name)

def named (place : Part × String) : String := place.1.title ++ " \"" ++ place.2 ++ "\""

/-- the message begins with the map and the key -/
def Names (place : Part × String) (message : String) : Prop := ∃ rest, message = named place ++ rest

theorem Names.append {place : Part × String} {message : String} (h : Names place message)
    (t : String) : Names place (message ++ t) := by
  obtain ⟨rest, rfl⟩ := h
  exact ⟨rest ++ t, String.append_assoc⟩

theorem names_append {part : Part} {name front back : String} (rest : String)
    (hfront : front = part.title ++ " \"") (hback : back = "\"" ++ rest) :
    Names (part, name) (front ++ name ++ back) := by
  refine ⟨rest, ?_⟩
  rw [hfront, hback, named]
  simp only [String.append_assoc]

/-- every message begins with the map and the key that the finding is about -/
theorem names_message (f : Finding) : Names f.place f.message := by
  cases f with
  | labelMissing name => exact names_append " is required" rfl rfl
  | labelTooLong name most got =>
    exact ((((names_append " exceeds max length of " rfl rfl).append _).append _).append _).append _
  | valueMissing name => exact names_append " is required" rfl rfl
  | valueNotNumber name value =>
    exact ((names_append " must be a number (got " rfl rfl).append _).append _
  | valueTooSmall name value bound =>
    exact (((names_append " (" rfl rfl).append _).append _).append _
  | valueTooLarge name value bound =>
    exact (((names_append " (" rfl rfl).append _).append _).append _
  | positionMissing name => exact names_append " is required" rfl rfl
  | positionMalformed name => exact names_append " must have numeric x and y" rfl rfl
  | positionOutside name point =>
    exact ((((names_append " (" rfl rfl).append _).append _).append _).append _
  | positionIgnored name => exact names_append " is malformed and will be ignored" rfl rfl
  | flagMalformed name value =>
    exact ((names_append " must be a boolean (got " rfl rfl).append _).append _

/-! ### what one step finds -/

section
variable {name : String} {f : Finding}

theorem place_of_checkLabel {spec : LabelSpec} {given : Option String}
    (hf : f ∈ checkLabel name spec given) : f.place = (.labels, name) := by
  unfold checkLabel ifRequired at hf
  grind [place]

theorem place_of_checkBounds {spec : ValueSpec} {x : Float} (hf : f ∈ checkBounds name spec x) :
    f.place = (.values, name) ∧ f.isWarning = true := by
  unfold checkBounds at hf
  grind [place, isWarning]

theorem place_of_checkValue {spec : ValueSpec} {given : Option Setting}
    (hf : f ∈ checkValue name spec given) : f.place = (.values, name) := by
  unfold checkValue ifRequired at hf
  grind [place, place_of_checkBounds]

theorem place_of_checkPosition {spec : PositionSpec} {given : Option Position}
    (hf : f ∈ checkPosition name spec given) : f.place = (.positions, name) := by
  unfold checkPosition ifRequired at hf
  grind [place]

theorem place_of_checkFlag {policy : Policy} {given : Option Flag}
    (hf : f ∈ checkFlag policy name given) : f.place = (.visibility, name) := by
  rw [checkFlag.eq_def] at hf
  grind [place]

theorem place_of_checkUndeclared {declared : Dict PositionSpec} {given : Position}
    (hf : f ∈ checkUndeclared declared name given) :
    f.place = (.positions, name) ∧ f.isWarning = true := by
  unfold checkUndeclared at hf
  grind [place, isWarning]

theorem length_errors_le (fs : List Finding) : (errors fs).length ≤ fs.length := by
  rw [errors, List.length_map]
  exact List.length_filter_le _ _

theorem length_errors_checkLabel (name : String) (spec : LabelSpec) (given : Option String) :
    (errors (checkLabel name spec given)).length ≤ 1 := by
  refine (length_errors_le _).trans ?_
  unfold checkLabel ifRequired
  grind

theorem length_errors_checkValue (name : String) (spec : ValueSpec) (given : Option Setting) :
    (errors (checkValue name spec given)).length ≤ 1 := by
  unfold checkValue
  split
  · refine (length_errors_le _).trans ?_
    unfold ifRequired
    grind
  · split
    · exact Nat.zero_le 1
    · split
      · exact Nat.le_refl 1
      · rename_i x _
        have hnone : errors (checkBounds name spec x) = [] :=
          errors_eq_nil_iff.mpr fun f hf => (place_of_checkBounds hf).2
        rw [hnone]
        exact Nat.zero_le 1

theorem length_errors_checkPosition (name : String) (spec : PositionSpec)
    (given : Option Position) :
    (errors (checkPosition name spec given)).length ≤ 1 := by
  refine (length_errors_le _).trans ?_
  unfold checkPosition ifRequired
  grind

theorem length_errors_checkFlag (policy : Policy) (name : String) (given : Option Flag) :
    (errors (checkFlag policy name given)).length ≤ 1 := by
  refine (length_errors_le _).trans ?_
  rw [checkFlag.eq_def]
  grind

end

/-! ### lists that differ at one place -/

/-- the lists `all` and `all'` are the same but for what is found at one place: there it is `own` in
the one, `own'` in the other -/
def SameBut (place : Part × String) (own own' all all' : List Finding) : Prop :=
  ∃ front back : List Finding, (∀ f ∈ front ++ back, f.place ≠ place) ∧
    all = front ++ own ++ back ∧ all' = front ++ own' ++ back

section
variable {place : Part × String} {own own' all all' rest : List Finding}

theorem SameBut.append_left (h : SameBut place own own' all all')
    (hrest : ∀ f ∈ rest, f.place ≠ place) : SameBut place own own' (rest ++ all)
      (rest ++ all') := by
  obtain ⟨front, back, helse, rfl, rfl⟩ := h
  refine ⟨rest ++ front, back, ?_, by simp only [List.append_assoc],
    by simp only [List.append_assoc]⟩
  rw [List.append_assoc]
  exact List.forall_mem_append.mpr ⟨hrest, helse⟩

theorem SameBut.append_right (h : SameBut place own own' all all')
    (hrest : ∀ f ∈ rest, f.place ≠ place) : SameBut place own own' (all ++ rest)
      (all' ++ rest) := by
  obtain ⟨front, back, helse, rfl, rfl⟩ := h
  refine ⟨front, back ++ rest, ?_, by simp only [List.append_assoc],
    by simp only [List.append_assoc]⟩
  rw [← List.append_assoc]
  exact List.forall_mem_append.mpr ⟨helse, hrest⟩

theorem SameBut.eq_of_nil (h : SameBut place [] [] all all') :
    all = all' ∧ ∀ f ∈ all, f.place ≠ place := by
  obtain ⟨front, back, helse, rfl, rfl⟩ := h
  exact ⟨rfl, by rwa [List.append_nil]⟩

end

/-- what is found at an entry has its place in the map `part` -/
def Sited {α : Type} (part : Part) (g : String × α → List Finding) : Prop :=
  ∀ e, ∀ f ∈ g e, f.place = (part, e.1)

section
variable {α : Type} {part : Part} {g u : String × α → List Finding}

theorem Sited.elsewhere (h : Sited part g) {other : Part} {k : String} (hne : part ≠ other)
    (l : List (String × α)) : ∀ f ∈ l.flatMap g, f.place ≠ (other, k) := by
  intro f hf heq
  obtain ⟨e, -, hf⟩ := List.mem_flatMap.mp hf
  exact hne (congrArg Prod.fst ((h e f hf).symm.trans heq))

/-- Two runs through dictionaries that agree off a key find the same, but for what they find at that
key. -/
theorem Sited.sameBut (h : Sited part g) {k : String} (hg : ∀ e, e.1 ≠ k → g e = u e)
    {d d' : Dict α} (hd : ∀ j, j ≠ k → d.get? j = d'.get? j) :
    SameBut (part, k) ((d.entryAt k).flatMap g) ((d'.entryAt k).flatMap u)
      (d.entries.flatMap g) (d'.entries.flatMap u) := by
  obtain ⟨hbefore, hafter⟩ := Dict.around_congr hd
  have hcongr : ∀ l : List (String × α), (∀ e ∈ l, e ∈ d.before k ∨ e ∈ d.after k) →
      l.flatMap u = l.flatMap g :=
    fun l hl => List.flatMap_congr fun e he => (hg e (Dict.ne_of_mem_around (hl e he))).symm
  refine ⟨(d.before k).flatMap g, (d.after k).flatMap g, ?_, ?_, ?_⟩
  · rw [← List.flatMap_append]
    intro f hf heq
    obtain ⟨e, he, hf⟩ := List.mem_flatMap.mp hf
    exact Dict.ne_of_mem_around (List.mem_append.mp he)
      (congrArg Prod.snd ((h e f hf).symm.trans heq))
  · rw [← List.flatMap_append, ← List.flatMap_append, ← d.entries_eq k]
  · rw [← hcongr _ fun e => .inl, ← hcongr _ fun e => .inr, hbefore, hafter, ← List.flatMap_append,
      ← List.flatMap_append, ← d'.entries_eq k]

theorem Sited.at_key (h : Sited part g) {d : Dict α} {k : String} {f : Finding}
    (hf : f ∈ (d.entryAt k).flatMap g) : f.place = (part, k) := by
  obtain ⟨e, he, hf⟩ := List.mem_flatMap.mp hf
  rw [h e f hf, (Dict.mem_entryAt.mp he).2]

theorem length_errors_entryAt (hg : ∀ e, (errors (g e)).length ≤ 1) (d : Dict α) (k : String) :
    (errors ((d.entryAt k).flatMap g)).length ≤ 1 := by
  cases hget : d.get? k with
  | none =>
    rw [Dict.entryAt_of_none hget]
    exact Nat.zero_le 1
  | some v =>
    rw [Dict.entryAt_of_get? hget, List.flatMap_singleton]
    exact hg (k, v)

end

end Finding

namespace Params

/-- parameters that are the same but at one place -/
structure AgreesBut (place : Part × String) (p q : Params) : Prop where
  labels : ∀ name, (.labels, name) ≠ place → p.labels.get? name = q.labels.get? name
  values : ∀ name, (.values, name) ≠ place → p.values.get? name = q.values.get? name
  visibility : ∀ name, (.visibility, name) ≠ place →
    p.visibility.get? name = q.visibility.get? name
  positions : ∀ name, (.positions, name) ≠ place → p.positions.get? name = q.positions.get? name

def findingsAt (p : Params) (s : Schema) (policy : Policy) : Part × String → List Finding
  | (.labels, k) =>
    (s.labels.entryAt k).flatMap fun e => checkLabel e.1 e.2 (p.labels.get? e.1)
  | (.values, k) =>
    (s.values.entryAt k).flatMap fun e => checkValue e.1 e.2 (p.values.get? e.1)
  | (.visibility, k) =>
    (s.visibility.entryAt k).flatMap fun e => checkFlag policy e.1 (p.visibility.get? e.1)
  | (.positions, k) =>
    (s.positions.entryAt k).flatMap (fun e => checkPosition e.1 e.2 (p.positions.get? e.1)) ++
      (p.positions.entryAt k).flatMap fun e => checkUndeclared s.positions e.1 e.2

variable (p q : Params) (s : Schema) (policy : Policy)

theorem sited_label : Finding.Sited .labels
    fun e : String × LabelSpec => checkLabel e.1 e.2 (p.labels.get? e.1) :=
  fun _ _ => Finding.place_of_checkLabel

theorem sited_value : Finding.Sited .values
    fun e : String × ValueSpec => checkValue e.1 e.2 (p.values.get? e.1) :=
  fun _ _ => Finding.place_of_checkValue

theorem sited_position : Finding.Sited .positions
    fun e : String × PositionSpec => checkPosition e.1 e.2 (p.positions.get? e.1) :=
  fun _ _ => Finding.place_of_checkPosition

theorem sited_flag : Finding.Sited .visibility
    fun e : String × FlagSpec => checkFlag policy e.1 (p.visibility.get? e.1) :=
  fun _ _ => Finding.place_of_checkFlag

theorem sited_undeclared : Finding.Sited .positions
    fun e : String × Position => checkUndeclared s.positions e.1 e.2 :=
  fun _ _ hf => (Finding.place_of_checkUndeclared hf).1

/-- a position that is declared is not looked at twice -/
theorem checkUndeclared_eq_nil {k : String} {spec : PositionSpec}
    (hspec : s.positions.get? k = some spec) :
    (p.positions.entryAt k).flatMap (fun e => checkUndeclared s.positions e.1 e.2) = [] := by
  refine List.flatMap_eq_nil_iff.mpr fun e he => ?_
  have hdeclared : s.positions.get? e.1 = some spec := (Dict.mem_entryAt.mp he).2 ▸ hspec
  exact checkUndeclared_of_declared hdeclared e.2

/-! ### parameters that differ at one place -/

section
variable {p q} {part : Part} {k : String}

theorem AgreesBut.labels_eq (h : AgreesBut (part, k) p q) (hne : part ≠ .labels) :
    p.labels = q.labels :=
  Dict.ext_get? fun j => h.labels j fun heq => hne (congrArg Prod.fst heq).symm

theorem AgreesBut.values_eq (h : AgreesBut (part, k) p q) (hne : part ≠ .values) :
    p.values = q.values :=
  Dict.ext_get? fun j => h.values j fun heq => hne (congrArg Prod.fst heq).symm

theorem AgreesBut.visibility_eq (h : AgreesBut (part, k) p q) (hne : part ≠ .visibility) :
    p.visibility = q.visibility :=
  Dict.ext_get? fun j => h.visibility j fun heq => hne (congrArg Prod.fst heq).symm

theorem AgreesBut.positions_eq (h : AgreesBut (part, k) p q) (hne : part ≠ .positions) :
    p.positions = q.positions :=
  Dict.ext_get? fun j => h.positions j fun heq => hne (congrArg Prod.fst heq).symm

theorem place_ne {j : String} (hj : j ≠ k) : (part, j) ≠ (part, k) :=
  fun heq => hj (congrArg Prod.snd heq)

theorem sameBut_labels (h : AgreesBut (.labels, k) p q) :
    Finding.SameBut (.labels, k) (p.findingsAt s policy (.labels, k))
      (q.findingsAt s policy (.labels, k)) (p.findings s policy) (q.findings s policy) := by
  have hrun := (sited_label p).sameBut (u := fun e => checkLabel e.1 e.2 (q.labels.get? e.1))
    (d := s.labels) (fun e he => by rw [h.labels e.1 (place_ne he)]) fun _ _ => rfl
  rw [findings, findings, h.values_eq (by decide), h.visibility_eq (by decide),
    h.positions_eq (by decide)]
  exact (((hrun.append_right ((sited_value q).elsewhere (by decide) _)).append_right
    ((sited_position q).elsewhere (by decide) _)).append_right
    ((sited_flag q policy).elsewhere (by decide) _)).append_right
    ((sited_undeclared s).elsewhere (by decide) _)

theorem sameBut_values (h : AgreesBut (.values, k) p q) :
    Finding.SameBut (.values, k) (p.findingsAt s policy (.values, k))
      (q.findingsAt s policy (.values, k)) (p.findings s policy) (q.findings s policy) := by
  have hrun := (sited_value p).sameBut (u := fun e => checkValue e.1 e.2 (q.values.get? e.1))
    (d := s.values) (fun e he => by rw [h.values e.1 (place_ne he)]) fun _ _ => rfl
  rw [findings, findings, h.labels_eq (by decide), h.visibility_eq (by decide),
    h.positions_eq (by decide)]
  exact (((hrun.append_left ((sited_label q).elsewhere (by decide) _)).append_right
    ((sited_position q).elsewhere (by decide) _)).append_right
    ((sited_flag q policy).elsewhere (by decide) _)).append_right
    ((sited_undeclared s).elsewhere (by decide) _)

theorem sameBut_visibility (h : AgreesBut (.visibility, k) p q) :
    Finding.SameBut (.visibility, k) (p.findingsAt s policy (.visibility, k))
      (q.findingsAt s policy (.visibility, k)) (p.findings s policy) (q.findings s policy) := by
  have hrun := (sited_flag p policy).sameBut
    (u := fun e => checkFlag policy e.1 (q.visibility.get? e.1))
    (d := s.visibility) (fun e he => by rw [h.visibility e.1 (place_ne he)]) fun _ _ => rfl
  rw [findings, findings, h.labels_eq (by decide), h.values_eq (by decide),
    h.positions_eq (by decide)]
  refine (hrun.append_left ?_).append_right ((sited_undeclared s).elsewhere (by decide) _)
  exact List.forall_mem_append.mpr ⟨List.forall_mem_append.mpr
    ⟨(sited_label q).elsewhere (by decide) _, (sited_value q).elsewhere (by decide) _⟩,
    (sited_position q).elsewhere (by decide) _⟩

theorem sameBut_positions (h : AgreesBut (.positions, k) p q) :
    Finding.SameBut (.positions, k) (p.findingsAt s policy (.positions, k))
      (q.findingsAt s policy (.positions, k)) (p.findings s policy) (q.findings s policy) := by
  have hdeclared := (sited_position p).sameBut
    (u := fun e => checkPosition e.1 e.2 (q.positions.get? e.1))
    (d := s.positions) (fun e he => by rw [h.positions e.1 (place_ne he)]) fun _ _ => rfl
  have hgiven := (sited_undeclared s).sameBut (fun _ _ => rfl)
    fun j hj => h.positions j (place_ne hj)
  rw [findings, findings, h.labels_eq (by decide), h.values_eq (by decide),
    h.visibility_eq (by decide), findingsAt, findingsAt]
  have hfirst := List.forall_mem_append.mpr
    ⟨(sited_label q).elsewhere (k := k) (by decide : Part.labels ≠ .positions) s.labels.entries,
      (sited_value q).elsewhere (by decide) s.values.entries⟩
  have hflags := (sited_flag q policy).elsewhere (k := k)
    (by decide : Part.visibility ≠ .positions) s.visibility.entries
  -- a key is looked at as a declared one or as one that is not, never as both
  cases hspec : s.positions.get? k with
  | some spec =>
    rw [checkUndeclared_eq_nil p s hspec, checkUndeclared_eq_nil q s hspec] at hgiven ⊢
    obtain ⟨hsame, helse⟩ := hgiven.eq_of_nil
    rw [List.append_nil, List.append_nil, ← hsame]
    exact ((hdeclared.append_left hfirst).append_right hflags).append_right helse
  | none =>
    rw [Dict.entryAt_of_none hspec] at hdeclared ⊢
    obtain ⟨hsame, helse⟩ := hdeclared.eq_of_nil
    rw [← hsame]
    exact hgiven.append_left (List.forall_mem_append.mpr
      ⟨List.forall_mem_append.mpr ⟨hfirst, helse⟩, hflags⟩)

end

variable {p q}

/-- what is found in two parameters is the same but for what is found where they differ -/
theorem findings_sameBut {place : Part × String} (h : AgreesBut place p q) :
    Finding.SameBut place (p.findingsAt s policy place) (q.findingsAt s policy place)
      (p.findings s policy) (q.findings s policy) := by
  obtain ⟨part, k⟩ := place
  cases part with
  | labels => exact sameBut_labels s policy h
  | values => exact sameBut_values s policy h
  | visibility => exact sameBut_visibility s policy h
  | positions => exact sameBut_positions s policy h

/-! ### what is found at a place -/

theorem place_of_findingsAt {place : Part × String} {f : Finding}
    (hf : f ∈ p.findingsAt s policy place) : f.place = place := by
  obtain ⟨part, k⟩ := place
  cases part with
  | labels => exact (sited_label p).at_key hf
  | values => exact (sited_value p).at_key hf
  | visibility => exact (sited_flag p policy).at_key hf
  | positions =>
    rcases List.mem_append.mp hf with hf | hf
    · exact (sited_position p).at_key hf
    · exact (sited_undeclared s).at_key hf

theorem length_errors_findingsAt (p : Params) (s : Schema) (policy : Policy)
    (place : Part × String) : (Finding.errors (p.findingsAt s policy place)).length ≤ 1 := by
  obtain ⟨part, k⟩ := place
  cases part with
  | labels =>
    exact Finding.length_errors_entryAt (fun _ => Finding.length_errors_checkLabel _ _ _) _ k
  | values =>
    exact Finding.length_errors_entryAt (fun _ => Finding.length_errors_checkValue _ _ _) _ k
  | visibility =>
    exact Finding.length_errors_entryAt (fun _ => Finding.length_errors_checkFlag _ _ _) _ k
  | positions =>
    have hnone : Finding.errors ((p.positions.entryAt k).flatMap
        fun e => checkUndeclared s.positions e.1 e.2) = [] := by
      refine Finding.errors_eq_nil_iff.mpr fun f hf => ?_
      obtain ⟨e, -, hf⟩ := List.mem_flatMap.mp hf
      exact (Finding.place_of_checkUndeclared hf).2
    rw [findingsAt, Finding.errors_append, hnone, List.append_nil]
    exact Finding.length_errors_entryAt (fun _ => Finding.length_errors_checkPosition _ _ _) _ k

/-- At one place, `p` lacks what is required there, which is what `f` reports, and `q` has it: a
text that is not blank and not too long, a value that is not blank and, if it should be a number,
one within the bounds, or a point of finite coordinates that lies where it should. -/
inductive Supplies (s : Schema) (p q : Params) : Part × String → Finding → Prop
  | label {k : String} {spec : LabelSpec} {text : String}
    (declared : s.labels.get? k = some spec) (required : spec.required = true)
    (missing : ∀ text, p.labels.get? k = some text → Text.isBlank text = true)
    (given : q.labels.get? k = some text) (present : Text.isBlank text = false)
    (fits : ∀ most, spec.maxLength = some most → text.toList.length ≤ most) :
    Supplies s p q (.labels, k) (.labelMissing k)
  | value {k : String} {spec : ValueSpec} {v : Setting}
    (declared : s.values.get? k = some spec) (required : spec.required = true)
    (missing : ∀ v, p.values.get? k = some v → v.isBlank = true)
    (given : q.values.get? k = some v) (present : v.isBlank = false)
    (within : spec.kind = .number → ∃ x, v.number? = some x ∧
      (∀ low, spec.min = some low → low ≤ x) ∧ (∀ high, spec.max = some high → x ≤ high)) :
    Supplies s p q (.values, k) (.valueMissing k)
  | position {k : String} {spec : PositionSpec} {point : Point}
    (declared : s.positions.get? k = some spec) (required : spec.required = true)
    (missing : p.positions.get? k = none)
    (given : q.positions.get? k = some (.known point))
    (finite : point.x.isFinite = true ∧ point.y.isFinite = true)
    (placed : spec.normalized = true →
      0.0 ≤ point.x ∧ point.x ≤ 1.0 ∧ 0.0 ≤ point.y ∧ point.y ≤ 1.0) :
    Supplies s p q (.positions, k) (.positionMissing k)

/-- the bounds that a number keeps are those that it does not break -/
theorem admits_of_le {spec : ValueSpec} {x : Float} (hmin : ∀ low, spec.min = some low → low ≤ x)
    (hmax : ∀ high, spec.max = some high → x ≤ high) : spec.admits x = true := by
  have hlow : (spec.min.any fun low => x < low) = false := by
    rw [← Bool.not_eq_true, Option.any_eq_true]
    rintro ⟨low, hlow, hlt⟩
    exact not_lt_of_le (hmin low hlow) (of_decide_eq_true hlt)
  have hhigh : (spec.max.any fun high => high < x) = false := by
    rw [← Bool.not_eq_true, Option.any_eq_true]
    rintro ⟨high, hhigh, hlt⟩
    exact not_lt_of_le (hmax high hhigh) (of_decide_eq_true hlt)
  rw [ValueSpec.admits, hlow, hhigh]
  rfl

/-- the missing parameter is all that is found where it is missing, and nothing is found where it is
not -/
theorem findingsAt_of_supplies {place : Part × String} {f : Finding} (h : Supplies s p q place f) :
    p.findingsAt s policy place = [f] ∧ q.findingsAt s policy place = [] ∧ f.isWarning = false := by
  cases h with
  | label declared required missing given present fits =>
    rw [findingsAt, findingsAt, Dict.entryAt_of_get? declared, List.flatMap_singleton,
      List.flatMap_singleton, checkLabel_of_missing missing, given, checkLabel_of_fits present fits]
    exact ⟨if_pos required, rfl, rfl⟩
  | value declared required missing given present within =>
    rename_i k spec v
    have hadmits : spec.kind = .number → ∃ x, v.number? = some x ∧ spec.admits x = true :=
      fun hkind => (within hkind).imp fun x hx => ⟨hx.1, admits_of_le hx.2.1 hx.2.2⟩
    rw [findingsAt, findingsAt, Dict.entryAt_of_get? declared, List.flatMap_singleton,
      List.flatMap_singleton, checkValue_of_missing missing, given,
      checkValue_of_admits present hadmits]
    exact ⟨if_pos required, rfl, rfl⟩
  | position declared required missing given finite placed =>
    rename_i k spec point
    have hpoint : (Position.known point).point? = some point :=
      if_pos (Bool.and_eq_true_iff.mpr finite)
    have hplaced : spec.normalized = true → point.inUnitSquare = true := by
      simpa [Point.inUnitSquare, and_assoc] using placed
    rw [findingsAt, findingsAt, checkUndeclared_eq_nil p s declared,
      checkUndeclared_eq_nil q s declared, Dict.entryAt_of_get? declared, List.append_nil,
      List.append_nil, List.flatMap_singleton, List.flatMap_singleton, missing, given,
      checkPosition_of_placed hpoint hplaced]
    exact ⟨if_pos required, rfl, rfl⟩

/-! ### what a check reports -/

/-- The diagnosis of `p` is made of `front`, what is found at the place, and `back`. What is found
there names the place, and is at most one error. -/
structure Reports (s : Schema) (policy : Policy) (place : Part × String) (front back : List Finding)
    (p : Params) : Prop where
  errors : (p.check s policy).errors = Finding.errors front
    ++ Finding.errors (p.findingsAt s policy place) ++ Finding.errors back
  warnings : (p.check s policy).warnings = Finding.warnings front
    ++ Finding.warnings (p.findingsAt s policy place) ++ Finding.warnings back
  own : ∀ f ∈ p.findingsAt s policy place,
    f.place = place ∧ Finding.Names place f.message
  single : (Finding.errors (p.findingsAt s policy place)).length ≤ 1

theorem reports_of_findings {place : Part × String} {front back : List Finding}
    (h : p.findings s policy = front ++ p.findingsAt s policy place ++ back) :
    Reports s policy place front back p where
  errors := by rw [check_eq, h, Finding.errors_append, Finding.errors_append]
  warnings := by rw [check_eq, h, Finding.warnings_append, Finding.warnings_append]
  own f hf := by
    obtain rfl := place_of_findingsAt s policy hf
    exact ⟨rfl, f.names_message⟩
  single := length_errors_findingsAt p s policy place

/-- Parameters that are the same but at one place have the same diagnosis but for what is found
there, and that is at most one error in either. What is found elsewhere stands in the same order. If
one of them lacks what is required at the place and the other one has it, the error that reports it
is all that goes. -/
theorem check_local (p q : Params) (s : Schema) (policy : Policy) (place : Part × String)
    (h : AgreesBut place p q) :
    ∃ front back : List Finding, (∀ f ∈ front ++ back, f.place ≠ place) ∧
      Reports s policy place front back p ∧ Reports s policy place front back q ∧
      ∀ f, Supplies s p q place f →
        (p.check s policy).errors
          = Finding.errors front ++ [f.message] ++ Finding.errors back ∧
        (q.check s policy).errors = Finding.errors front ++ Finding.errors back ∧
        (p.check s policy).warnings = (q.check s policy).warnings := by
  obtain ⟨front, back, helse, hp, hq⟩ := findings_sameBut s policy h
  have hreports := reports_of_findings s policy hp
  have hreports' := reports_of_findings s policy hq
  refine ⟨front, back, helse, hreports, hreports', fun f hf => ?_⟩
  obtain ⟨hown, hnone, herror⟩ := findingsAt_of_supplies s policy hf
  rw [hreports.errors, hreports'.errors, hreports.warnings, hreports'.warnings, hown, hnone,
    Finding.errors_singleton herror, Finding.warnings_singleton herror]
  exact ⟨rfl, by rw [Finding.errors_nil, List.append_nil], rfl⟩

/-- a label and a number up to ten, both required -/
def asked : Schema :=
  (({} : Schema).label "A" { required := true }).value "r" ({ max := some 10.0 : ValueSpec }).needed

def halfway : Params := ({} : Params).withValue "r" (.text "7.5")

/-- the number supplied, the label is still reported -/
theorem check_local_halfway :
    AgreesBut (.values, "r") {} halfway ∧
      Supplies asked {} halfway (.values, "r") (.valueMissing "r") ∧
      ∃ front back : List Finding,
        (({} : Params).check asked .strict).errors
          = Finding.errors front ++ ["Value \"r\" is required"] ++ Finding.errors back ∧
        (halfway.check asked .strict).errors = Finding.errors front ++ Finding.errors back := by
  have hagrees : AgreesBut (.values, "r") {} halfway := by
    refine ⟨fun _ _ => rfl, fun name hne => ?_, fun _ _ => rfl, fun _ _ => rfl⟩
    have hname : name ≠ "r" := fun heq => hne (by rw [heq])
    exact (Dict.get?_insert _ _ _ _).trans (if_neg hname) |>.symm
  have hsupplies : Supplies asked {} halfway (.values, "r") (.valueMissing "r") := by
    refine .value rfl rfl nofun rfl (by decide) fun _ => ⟨7.5, by decide, nofun, ?_⟩
    intro high hhigh
    obtain rfl := Option.some.inj hhigh
    decide
  obtain ⟨front, back, -, -, -, hsupply⟩ := check_local {} halfway asked .strict _ hagrees
  obtain ⟨hmissing, hgone, -⟩ := hsupply _ hsupplies
  exact ⟨hagrees, hsupplies, front, back, hmissing, hgone⟩

end Params

end Figures
