import Figures.Proofs.Json.Scalars

/-!
# Reading the text of a value

* `Json.depth`                how deep lists and objects nest in a value
* `Json.reals`                the doubles in a value
* `Document.Finishes`         the machine arrives at the end of a list, an object or a value
* `Document.ofText_compact`   the text of a value is read as the document of the value

The number of steps does not matter as long as it does not exceed the number of characters: `ofText`
allows for more. So `Finishes` speaks of any number of steps that are left.
-/

namespace Figures

namespace Json

mutual

/-- how deep lists and objects nest -/
def depth : Json → ℕ
  | .list items => depthOfItems items + 1
  | .object members => depthOfMembers members + 1
  | _ => 0

def depthOfItems : List Json → ℕ
  | [] => 0
  | v :: rest => max (depth v) (depthOfItems rest)

def depthOfMembers : List (String × Json) → ℕ
  | [] => 0
  | (_, v) :: rest => max (depth v) (depthOfMembers rest)

end

mutual

def reals : Json → List Float
  | .real x => [x]
  | .list items => realsOfItems items
  | .object members => realsOfMembers members
  | _ => []

def realsOfItems : List Json → List Float
  | [] => []
  | v :: rest => reals v ++ realsOfItems rest

def realsOfMembers : List (String × Json) → List Float
  | [] => []
  | (_, v) :: rest => reals v ++ realsOfMembers rest

end

section
variable {items : List Json} {members : List (String × Json)} {v : Json} {e : String × Json}

theorem depth_list : (Json.list items).depth = depthOfItems items + 1 := rfl

theorem depth_object : (Json.object members).depth = depthOfMembers members + 1 := rfl

theorem depthOfItems_cons : depthOfItems (v :: items) = max v.depth (depthOfItems items) := rfl

theorem depthOfMembers_cons : depthOfMembers (e :: members) = max e.2.depth
    (depthOfMembers members) := rfl

theorem reals_list : (Json.list items).reals = realsOfItems items := rfl

theorem reals_object : (Json.object members).reals = realsOfMembers members := rfl

theorem realsOfItems_cons : realsOfItems (v :: items) = v.reals ++ realsOfItems items := rfl

theorem realsOfMembers_cons : realsOfMembers (e :: members) = e.2.reals ++
    realsOfMembers members := rfl

theorem depth_item (h : v ∈ items) : v.depth < (Json.list items).depth := by
  rw [depth_list, Nat.lt_succ_iff]
  induction items with
  | nil => exact absurd h List.not_mem_nil
  | cons w items ih =>
    rw [depthOfItems_cons]
    rcases List.mem_cons.mp h with rfl | h
    · exact le_max_left _ _
    · exact le_trans (ih h) (le_max_right _ _)

theorem depth_member (h : e ∈ members) : e.2.depth < (Json.object members).depth := by
  rw [depth_object, Nat.lt_succ_iff]
  induction members with
  | nil => exact absurd h List.not_mem_nil
  | cons m members ih =>
    rw [depthOfMembers_cons]
    rcases List.mem_cons.mp h with rfl | h
    · exact le_max_left _ _
    · exact le_trans (ih h) (le_max_right _ _)

theorem reals_item (h : v ∈ items) : v.reals ⊆ (Json.list items).reals := by
  rw [reals_list]
  induction items with
  | nil => exact absurd h List.not_mem_nil
  | cons w items ih =>
    rw [realsOfItems_cons]
    rcases List.mem_cons.mp h with rfl | h
    · exact List.subset_append_left _ _
    · exact List.Subset.trans (ih h) (List.subset_append_right _ _)

theorem reals_member (h : e ∈ members) : e.2.reals ⊆ (Json.object members).reals := by
  rw [reals_object]
  induction members with
  | nil => exact absurd h List.not_mem_nil
  | cons m members ih =>
    rw [realsOfMembers_cons]
    rcases List.mem_cons.mp h with rfl | h
    · exact List.subset_append_left _ _
    · exact List.Subset.trans (ih h) (List.subset_append_right _ _)

theorem induction {P : Json → Prop} (list : ∀ items, (∀ v ∈ items, P v) → P (.list items))
    (object : ∀ members, (∀ e ∈ members, P e.2) → P (.object members))
    (leaf : ∀ v, (∀ items, v ≠ .list items) → (∀ members, v ≠ .object members) → P v) : ∀ v, P v
  | .list items => list items fun v hv =>
    have := List.sizeOf_lt_of_mem hv
    induction list object leaf v
  | .object members => object members fun e he =>
    have := List.sizeOf_lt_of_mem he
    have : sizeOf e.2 < sizeOf e := by cases e; simp +arith
    induction list object leaf e.2
  | .null | .boolean _ | .integer _ | .real _ | .text _ => leaf _ nofun nofun

end

/-! ### the characters of lists and objects -/

theorem toList_compact_list (items : List Json) :
    (Json.list items).compact.toList = '[' :: ((compactItems true items).toList ++ [']']) := by
  rw [compact, String.toList_append, String.toList_append]
  rfl

theorem toList_compact_object (members : List (String × Json)) :
    (Json.object members).compact.toList
      = '\x7b' :: ((compactMembers true members).toList ++ ['\x7d']) := by
  rw [compact, String.toList_append, String.toList_append]
  rfl

/-- nothing in front of the first entry, a comma in front of the others -/
def separator (first : Bool) : List Char := if first then [] else [',']

theorem toList_compactItems (first : Bool) (v : Json) (items : List Json) :
    (compactItems first (v :: items)).toList
      = separator first ++ (v.compact.toList ++ (compactItems false items).toList) := by
  rw [compactItems, String.toList_append, String.toList_append, List.append_assoc]
  cases first <;> rfl

theorem toList_compactMembers (first : Bool) (key : String) (v : Json)
    (members : List (String × Json)) :
    (compactMembers first ((key, v) :: members)).toList = separator first ++ ((quote key).toList ++
      ':' :: (v.compact.toList ++ (compactMembers false members).toList)) := by
  rw [compactMembers]
  simp only [String.toList_append, List.append_assoc]
  cases first <;> rfl

end Json

namespace Document

/-! ### steps of the machine -/

/-- a value is finished, with some steps left for the rest -/
def handed (fuel : ℕ) (doc : Document) (frames : List Frame) (rest : List Char) :
    Document × Option (List Char) :=
  match deliver doc frames with
  | none => (doc, some rest)
  | some frames => machine fuel frames .separator rest

section
variable {fuel : ℕ} {frames outer : List Frame} {cs rest : List Char}

theorem machine_scalar {c : Char} {doc : Document} (hc : Single c cs doc) (hrest : Closes rest) :
    machine (fuel + 1) frames .value (c :: (cs ++ rest)) = handed fuel doc frames rest := by
  rw [machine.eq_def]
  dsimp only
  rw [List.dropWhile_cons_of_neg (by simp [hc.opens.notSpace])]
  simp only [hc.notList, hc.notObject, if_false, hc.read rest hrest]
  rfl

theorem machine_open_list (h : frames.length < depthLimit) : machine (fuel + 1) frames .value
    ('[' :: cs) = machine fuel (.list [] :: frames) .itemOrEnd cs :=
  if_pos h

theorem machine_open_object (h : frames.length < depthLimit) : machine (fuel + 1) frames .value
    ('\x7b' :: cs) = machine fuel (.object [] :: frames) .keyOrEnd cs :=
  if_pos h

/-- in front of an item it does not matter that the list could end -/
theorem machine_item {items : List Document} {c : Char} (hc : Opens c) :
    machine fuel (.list items :: outer) .itemOrEnd (c :: cs)
      = machine fuel (.list items :: outer) .value (c :: cs) := by
  cases fuel with
  | zero => rfl
  | succ fuel =>
    rw [machine.eq_def, machine.eq_def]
    dsimp only
    rw [List.dropWhile_cons_of_neg (by simp [hc.notSpace])]
    exact if_neg hc.notEnd

theorem machine_close_list (items : List Document) {expects : Expects}
    (h : expects = .itemOrEnd ∨ expects = .separator) :
    machine (fuel + 1) (.list items :: outer) expects (']' :: cs)
      = handed fuel (.list items.reverse none) outer cs := by
  rcases h with rfl | rfl <;> rfl

theorem machine_comma_list (items : List Document) :
    machine (fuel + 1) (.list items :: outer) .separator (',' :: cs)
      = machine fuel (.list items :: outer) .value cs := rfl

theorem machine_close_object (members : List (String × Document)) {expects : Expects}
    (h : expects = .keyOrEnd ∨ expects = .separator) :
    machine (fuel + 1) (.object members :: outer) expects ('\x7d' :: cs)
      = handed fuel (.object members.reverse none) outer cs := by
  rcases h with rfl | rfl <;> rfl

theorem machine_comma_object (members : List (String × Document)) :
    machine (fuel + 1) (.object members :: outer) .separator (',' :: cs)
      = machine fuel (.object members :: outer) .key cs := rfl

theorem machine_key (members : List (String × Document)) (key : String) {expects : Expects}
    (h : expects = .keyOrEnd ∨ expects = .key) :
    machine (fuel + 1) (.object members :: outer) expects ((Json.quote key).toList ++ ':' :: cs)
      = machine fuel (.member members key :: outer) .value cs := by
  have hread : readText (some []) (escaped key.toList ++ '\x22' :: ':' :: cs)
      = .ok (some key, ':' :: cs) := by
    rw [readText_escaped, List.reverse_nil, List.nil_append, String.ofList_toList]
  rw [toList_quote, List.cons_append, List.append_assoc, List.singleton_append, machine.eq_def]
  rcases h with rfl | rfl
  all_goals
    dsimp only
    rw [List.dropWhile_cons_of_neg (by decide)]
    simp only [hread]
    rfl

end

/-! ### values with all their parts -/

/-- from the characters `cs` on, the machine arrives at the value `doc` inside the frames `outer`,
with `rest` left; it takes no more steps than characters -/
def Finishes (frames : List Frame) (expects : Expects) (cs : List Char) (doc : Document)
    (outer : List Frame) (rest : List Char) : Prop :=
  ∃ n, n + rest.length ≤ cs.length ∧
    ∀ fuel, machine (fuel + n) frames expects cs = handed fuel doc outer rest

section
variable {frames frames' outer : List Frame} {expects expects' : Expects} {cs cs' rest : List Char}
  {doc : Document}

theorem Finishes.last (hlength : rest.length < cs.length)
    (h : ∀ fuel, machine (fuel + 1) frames expects cs = handed fuel doc outer rest) :
    Finishes frames expects cs doc outer rest := ⟨1, by omega, h⟩

theorem Finishes.step (hlength : cs'.length < cs.length)
    (h : ∀ fuel, machine (fuel + 1) frames expects cs = machine fuel frames' expects' cs')
    (hrest : Finishes frames' expects' cs' doc outer rest) :
    Finishes frames expects cs doc outer rest := by
  obtain ⟨n, hn, hrun⟩ := hrest
  exact ⟨n + 1, by omega, fun fuel => (h (fuel + n)).trans (hrun fuel)⟩

theorem Finishes.part {part : Document} (h : Finishes frames expects cs part frames cs')
    (hpart : deliver part frames = some frames')
    (hrest : Finishes frames' .separator cs' doc outer rest) :
    Finishes frames expects cs doc outer rest := by
  obtain ⟨m, hm, hrun⟩ := h
  obtain ⟨n, hn, hrun'⟩ := hrest
  refine ⟨n + m, by omega, fun fuel => ?_⟩
  rw [← Nat.add_assoc, hrun, handed, hpart]
  exact hrun' fuel

end

/-- the text of a value is read as the document of the value, wherever the value may stand; this is
what the induction over values carries -/
structure Legible (v : Json) : Prop where
  opens : ∃ c cs, v.compact.toList = c :: cs ∧ Opens c
  read : ∀ frames rest, frames.length + v.depth ≤ depthLimit → Closes rest →
    Finishes frames .value (v.compact.toList ++ rest) (ofJson v) frames rest

theorem closes_items (items : List Json) (rest : List Char) :
    Closes ((Json.compactItems false items).toList ++ ']' :: rest) := by
  intro c hc
  cases items with
  | nil => exact .inr (.inl (Option.some.inj hc).symm)
  | cons v items =>
    rw [Json.toList_compactItems] at hc
    exact .inl (Option.some.inj hc).symm

theorem closes_members (members : List (String × Json)) (rest : List Char) :
    Closes ((Json.compactMembers false members).toList ++ '\x7d' :: rest) := by
  intro c hc
  cases members with
  | nil => exact .inr (.inr (Option.some.inj hc).symm)
  | cons m members =>
    rw [Json.toList_compactMembers] at hc
    exact .inl (Option.some.inj hc).symm

/-- the items behind the first one, and the end of the list -/
theorem finishes_items {items : List Json} {outer : List Frame} (h : ∀ v ∈ items, Legible v)
    (hdepth : ∀ v ∈ items, outer.length + 1 + v.depth ≤ depthLimit) (done : List Document)
    (rest : List Char) :
    Finishes (.list done :: outer) .separator
      ((Json.compactItems false items).toList ++ ']' :: rest)
      (.list (done.reverse ++ items.map ofJson) none) outer rest := by
  induction items generalizing done with
  | nil =>
    rw [List.map_nil, List.append_nil]
    exact .last (Nat.lt_succ_self _) fun fuel => machine_close_list done (.inr rfl)
  | cons v items ih =>
    obtain ⟨hv, hitems⟩ := List.forall_mem_cons.mp h
    obtain ⟨hvdepth, hitemsdepth⟩ := List.forall_mem_cons.mp hdepth
    have hmore := ih hitems hitemsdepth (ofJson v :: done)
    rw [List.reverse_cons, List.append_assoc] at hmore
    rw [Json.toList_compactItems, List.append_assoc, List.append_assoc]
    refine .step (Nat.lt_succ_self _) (fun fuel => machine_comma_list done) ?_
    exact .part (hv.read (.list done :: outer) _ hvdepth (closes_items items rest)) rfl hmore

theorem legible_list {items : List Json} (h : ∀ v ∈ items, Legible v) :
    Legible (.list items) := by
  refine ⟨⟨_, _, Json.toList_compact_list items, rfl, by decide⟩,
    fun frames rest hdepth hrest => ?_⟩
  have hitems : ∀ v ∈ items, frames.length + 1 + v.depth ≤ depthLimit := fun v hv => by
    have := Json.depth_item hv
    omega
  have hopen : frames.length < depthLimit := by
    rw [Json.depth] at hdepth
    omega
  rw [Json.toList_compact_list, List.cons_append, List.append_assoc, List.singleton_append, ofJson,
    ofItems_eq_map]
  refine .step (Nat.lt_succ_self _) (fun fuel => machine_open_list hopen) ?_
  cases items with
  | nil => exact .last (Nat.lt_succ_self _) fun fuel => machine_close_list [] (.inl rfl)
  | cons v items =>
    obtain ⟨hv, hmore⟩ := List.forall_mem_cons.mp h
    obtain ⟨hvdepth, hmoredepth⟩ := List.forall_mem_cons.mp hitems
    -- the first item is met where the list could also end
    obtain ⟨c, cs, htext, hc⟩ := hv.opens
    have hfirst := hv.read (.list [] :: frames) _ hvdepth (closes_items items rest)
    have hrest := finishes_items hmore hmoredepth [ofJson v] rest
    rw [Json.toList_compactItems, Json.separator, if_pos rfl, List.nil_append, List.append_assoc]
    rw [htext, List.cons_append] at hfirst ⊢
    obtain ⟨n, hn, hrun⟩ := hfirst.part rfl hrest
    exact ⟨n, hn, fun fuel => (machine_item hc).trans (hrun fuel)⟩

theorem finishes_member {v : Json} {outer outer' : List Frame} {expects : Expects}
    {done : List (String × Document)} {cs rest : List Char} {doc : Document} (key : String)
    (hv : Legible v) (hdepth : outer.length + 1 + v.depth ≤ depthLimit) (hcs : Closes cs)
    (hexpects : expects = .keyOrEnd ∨ expects = .key)
    (h : Finishes (.object ((key, ofJson v) :: done) :: outer) .separator cs doc outer' rest) :
    Finishes (.object done :: outer) expects
      ((Json.quote key).toList ++ ':' :: (v.compact.toList ++ cs)) doc outer' rest := by
  refine .step ?_ (fun fuel => machine_key done key hexpects) ?_
  · simp only [List.length_append, List.length_cons]
    omega
  · exact .part (hv.read (.member done key :: outer) cs hdepth hcs) rfl h

/-- the members behind the first one, and the end of the object -/
theorem finishes_members {members : List (String × Json)} {outer : List Frame}
    (h : ∀ e ∈ members, Legible e.2)
    (hdepth : ∀ e ∈ members, outer.length + 1 + e.2.depth ≤ depthLimit)
    (done : List (String × Document)) (rest : List Char) :
    Finishes (.object done :: outer) .separator
      ((Json.compactMembers false members).toList ++ '\x7d' :: rest)
      (.object (done.reverse ++ ofMembers members) none) outer rest := by
  induction members generalizing done with
  | nil =>
    rw [ofMembers, List.append_nil]
    exact .last (Nat.lt_succ_self _) fun fuel => machine_close_object done (.inr rfl)
  | cons m members ih =>
    obtain ⟨key, v⟩ := m
    obtain ⟨hv, hmembers⟩ := List.forall_mem_cons.mp h
    obtain ⟨hvdepth, hmembersdepth⟩ := List.forall_mem_cons.mp hdepth
    have hmore := ih hmembers hmembersdepth ((key, ofJson v) :: done)
    rw [List.reverse_cons, List.append_assoc] at hmore
    rw [Json.toList_compactMembers]
    simp only [List.append_assoc, List.cons_append]
    refine .step (Nat.lt_succ_self _) (fun fuel => machine_comma_object done) ?_
    exact finishes_member key hv hvdepth (closes_members members rest) (.inr rfl) hmore

theorem legible_object {members : List (String × Json)} (h : ∀ e ∈ members, Legible e.2) :
    Legible (.object members) := by
  refine ⟨⟨_, _, Json.toList_compact_object members, rfl, by decide⟩,
    fun frames rest hdepth hrest => ?_⟩
  have hmembers : ∀ e ∈ members, frames.length + 1 + e.2.depth ≤ depthLimit := fun e he => by
    have := Json.depth_member he
    omega
  have hopen : frames.length < depthLimit := by
    rw [Json.depth] at hdepth
    omega
  rw [Json.toList_compact_object, List.cons_append, List.append_assoc,
    List.singleton_append, ofJson]
  refine .step (Nat.lt_succ_self _) (fun fuel => machine_open_object hopen) ?_
  cases members with
  | nil => exact .last (Nat.lt_succ_self _) fun fuel => machine_close_object [] (.inl rfl)
  | cons m members =>
    obtain ⟨key, v⟩ := m
    obtain ⟨hv, hmore⟩ := List.forall_mem_cons.mp h
    obtain ⟨hvdepth, hmoredepth⟩ := List.forall_mem_cons.mp hmembers
    have hrest := finishes_members hmore hmoredepth [(key, ofJson v)] rest
    rw [Json.toList_compactMembers]
    simp only [List.append_assoc, List.cons_append]
    exact finishes_member key hv hvdepth (closes_members members rest) (.inl rfl) hrest

theorem legible {v : Json} (hproper : (ofJson v).Proper) (hreals : ∀ x ∈ v.reals, Survives x) :
    Legible v := by
  induction v using Json.induction with
  | list items ih =>
    rw [ofJson, ofItems_eq_map, proper_list, List.forall_mem_map] at hproper
    exact legible_list fun v hv =>
      ih v hv (hproper v hv) fun x hx => hreals x (Json.reals_item hv hx)
  | object members ih =>
    have hproper := (proper_ofJson_object.mp hproper).2
    exact legible_object fun e he =>
      ih e he (hproper e he) fun x hx => hreals x (Json.reals_member he hx)
  | leaf v hlist hobject =>
    obtain ⟨c, cs, htext, hsingle⟩ := single_scalar hlist hobject hproper fun x hx =>
      hreals x (hx ▸ List.mem_singleton_self x)
    refine ⟨⟨c, cs, htext, hsingle.opens⟩, fun frames rest _ hrest => ?_⟩
    rw [htext, List.cons_append]
    refine .last ?_ fun fuel => machine_scalar hsingle hrest
    rw [List.length_cons, List.length_append]
    omega

/-- the text of a value is read as the document of the value, with nothing behind it -/
theorem ofText_compact {v : Json} (hproper : (ofJson v).Proper) (hdepth : v.depth ≤ depthLimit)
    (hreals : ∀ x ∈ v.reals, Survives x) : ofText v.compact = (ofJson v, none) := by
  obtain ⟨n, hn, hrun⟩ := (legible hproper hreals).read [] [] (by simpa using hdepth) nofun
  -- no frame is open, so that the value is the document
  rw [List.append_nil] at hn hrun
  obtain ⟨fuel, hfuel⟩ : ∃ fuel, 2 * v.compact.toList.length + 2 = fuel + n :=
    ⟨2 * v.compact.toList.length + 2 - n, by simp at hn; omega⟩
  have hmachine : machine (2 * v.compact.toList.length + 2) [] .value v.compact.toList
      = (ofJson v, some []) := by
    rw [hfuel, hrun]
    rfl
  rw [ofText, hmachine]
  rfl

end Document

end Figures
