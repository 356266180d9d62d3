import Figures.Proofs.Dict
import Figures.Proofs.Except
import Figures.Proofs.Json.Decoder
import Figures.Proofs.Number.Finite

/-!
# Reading back what is written

* `Document.Proper`            finite numbers, whole numbers of 64 bits, and no key twice
* `Document.toJson_ofJson`     a value that was read is read again from the document written for it
* `Document.proper_ofJson`     which is a proper one
* `Decoder.Recovers d f v`     `d` reads `v` from what `f` writes for it, which is a proper document
* `Recovers.list`, `dict`, …   lists, dictionaries and members of records, from their parts

A decoder and an encoder fit together if whatever is read from a proper document is recovered. This
is proved along the decoders: `ReadsFrom Proper (Recovers d f) d`.
-/

namespace Figures

namespace Document

mutual

/-- what a JSON document can hold: finite numbers, whole ones of 64 bits, and no key twice -/
def Proper : Document → Prop
  | .integer n => -(signBit : Int) ≤ n ∧ n ≤ word64
  | .real x => x.isFinite = true
  | .list items _ => ProperItems items
  | .object members _ => (members.map Prod.fst).Nodup ∧ ProperMembers members
  | _ => True

def ProperItems : List Document → Prop
  | [] => True
  | doc :: rest => Proper doc ∧ ProperItems rest

def ProperMembers : List (String × Document) → Prop
  | [] => True
  | (_, doc) :: rest => Proper doc ∧ ProperMembers rest

end

@[simp] theorem proper_list {items : List Document} {stop : Option Fault} :
    (Document.list items stop).Proper ↔ ∀ doc ∈ items, doc.Proper := by
  rw [Proper]
  induction items with
  | nil => simp [ProperItems]
  | cons doc items ih => rw [ProperItems, ih, List.forall_mem_cons]

@[simp] theorem proper_object {members : List (String × Document)} {stop : Option Fault} :
    (Document.object members stop).Proper ↔
      (members.map Prod.fst).Nodup ∧ ∀ e ∈ members, e.2.Proper := by
  have hmembers : ∀ ms : List (String × Document), ProperMembers ms ↔ ∀ e ∈ ms, e.2.Proper := by
    intro ms
    induction ms with
    | nil => simp [ProperMembers]
    | cons m ms ih => rw [ProperMembers, ih, List.forall_mem_cons]
  rw [Proper, hmembers]

theorem hereditary_proper : Hereditary Proper :=
  ⟨fun _ _ h => proper_list.mp h, fun _ _ h => (proper_object.mp h).2⟩

theorem induction {P : Document → Prop}
    (list : ∀ items stop, (∀ doc ∈ items, P doc) → P (.list items stop))
    (object : ∀ members stop, (∀ e ∈ members, P e.2) → P (.object members stop))
    (leaf : ∀ doc, (∀ items stop, doc ≠ .list items stop) →
      (∀ members stop, doc ≠ .object members stop) → P doc) : ∀ doc, P doc
  | .list items stop => list items stop fun doc hdoc =>
    have := List.sizeOf_lt_of_mem hdoc
    induction list object leaf doc
  | .object members stop => object members stop fun e he =>
    have := List.sizeOf_lt_of_mem he
    have : sizeOf e.2 < sizeOf e := by cases e; simp +arith
    induction list object leaf e.2
  | .null | .boolean _ | .integer _ | .real _ | .text _ | .unfit | .broken _ =>
    leaf _ nofun nofun

/-! ### values and the documents written for them -/

theorem ofItems_eq_map (vs : List Json) : ofItems vs = vs.map ofJson := by
  induction vs with
  | nil => rfl
  | cons v vs ih => rw [ofItems, ih, List.map_cons]

theorem ofMembers_eq_map (members : List (String × Json)) :
    ofMembers members = members.map fun e => (e.1, ofJson e.2) := by
  induction members with
  | nil => rfl
  | cons m members ih => rw [ofMembers, ih, List.map_cons]

theorem itemsToJson_eq_ok {docs : List Document} {vs : List Json} :
    itemsToJson docs = .ok vs ↔ List.Forall₂ (fun doc v => doc.toJson = .ok v) docs vs := by
  induction docs generalizing vs with
  | nil =>
    rw [List.forall₂_nil_left_iff]
    exact ⟨fun h => (Except.ok.inj h).symm, fun h => congrArg _ h.symm⟩
  | cons doc docs ih =>
    rw [itemsToJson, List.forall₂_cons_left_iff]
    constructor
    · intro h
      obtain ⟨v, hv, h⟩ := ok_of_bind h
      obtain ⟨vs, hvs, h⟩ := ok_of_bind h
      exact ⟨v, vs, hv, ih.mp hvs, (Except.ok.inj h).symm⟩
    · rintro ⟨v, vs, hv, hvs, rfl⟩
      rw [hv, ih.mpr hvs]
      rfl

theorem membersToJson_eq_ok {docs : List (String × Document)} {vs : List (String × Json)} :
    membersToJson docs = .ok vs ↔
      List.Forall₂ (fun m e => m.1 = e.1 ∧ m.2.toJson = .ok e.2) docs vs := by
  induction docs generalizing vs with
  | nil =>
    rw [List.forall₂_nil_left_iff]
    exact ⟨fun h => (Except.ok.inj h).symm, fun h => congrArg _ h.symm⟩
  | cons m docs ih =>
    rw [membersToJson, List.forall₂_cons_left_iff]
    constructor
    · intro h
      obtain ⟨v, hv, h⟩ := ok_of_bind h
      obtain ⟨vs, hvs, h⟩ := ok_of_bind h
      exact ⟨(m.1, v), vs, ⟨rfl, hv⟩, ih.mp hvs, (Except.ok.inj h).symm⟩
    · rintro ⟨e, vs, ⟨hkey, hv⟩, hvs, rfl⟩
      rw [hv, ih.mpr hvs]
      exact congrArg (fun key => Except.ok ((key, e.2) :: vs)) hkey

theorem exists_right {α β : Type} {R : α → β → Prop} {as : List α} {bs : List β}
    (h : List.Forall₂ R as bs) : ∀ a ∈ as, ∃ b ∈ bs, R a b := by
  induction h with
  | nil => exact fun a ha => absurd ha List.not_mem_nil
  | @cons a b as bs hab h ih =>
    refine List.forall_mem_cons.mpr ⟨⟨b, List.mem_cons_self, hab⟩, fun a ha => ?_⟩
    obtain ⟨b', hb', hab'⟩ := ih a ha
    exact ⟨b', List.mem_cons_of_mem b hb', hab'⟩

theorem exists_left {α β : Type} {R : α → β → Prop} {as : List α} {bs : List β}
    (h : List.Forall₂ R as bs) : ∀ b ∈ bs, ∃ a ∈ as, R a b := exists_right (List.Forall₂.flip h)

theorem toJson_list_eq_ok {items : List Document} {stop : Option Fault} {v : Json} :
    (Document.list items stop).toJson = .ok v ↔
      stop = none ∧ ∃ vs, itemsToJson items = .ok vs ∧ v = .list vs := by
  rw [toJson]
  constructor
  · intro h
    obtain ⟨vs, hvs, h⟩ := ok_of_bind h
    split at h
    · cases h
    · exact ⟨rfl, vs, hvs, (Except.ok.inj h).symm⟩
  · rintro ⟨rfl, vs, hvs, rfl⟩
    rw [hvs]
    rfl

theorem toJson_object_eq_ok {members : List (String × Document)} {stop : Option Fault} {v : Json} :
    (Document.object members stop).toJson = .ok v ↔ stop = none ∧
      ∃ vs, membersToJson members = .ok vs ∧ v = .object (Dict.ofList vs).entries := by
  rw [toJson]
  constructor
  · intro h
    obtain ⟨vs, hvs, h⟩ := ok_of_bind h
    split at h
    · cases h
    · exact ⟨rfl, vs, hvs, (Except.ok.inj h).symm⟩
  · rintro ⟨rfl, vs, hvs, rfl⟩
    rw [hvs]
    rfl

/-- what is neither a list nor an object is written as it was read -/
theorem ofJson_of_leaf {doc : Document} {v : Json} (h : doc.toJson = .ok v)
    (hlist : ∀ items stop, doc ≠ .list items stop)
    (hobject : ∀ members stop, doc ≠ .object members stop) :
    ofJson v = doc ∧ doc.fault? = none := by
  cases doc with
  | list items stop => exact absurd rfl (hlist items stop)
  | object members stop => exact absurd rfl (hobject members stop)
  | unfit | broken => cases h
  | null | boolean | integer | real | text =>
    cases h
    exact ⟨rfl, rfl⟩

/-- a value that was read is read again from the document written for it -/
theorem toJson_ofJson {doc : Document} {v : Json} (h : doc.toJson = .ok v) :
    (ofJson v).toJson = .ok v := by
  induction doc using induction generalizing v with
  | list items stop ih =>
    obtain ⟨-, vs, hvs, rfl⟩ := toJson_list_eq_ok.mp h
    refine toJson_list_eq_ok.mpr ⟨rfl, vs, itemsToJson_eq_ok.mpr ?_, rfl⟩
    rw [ofItems_eq_map, List.forall₂_map_left_iff, List.forall₂_same]
    intro v hv
    obtain ⟨doc, hdoc, hread⟩ := exists_left (itemsToJson_eq_ok.mp hvs) v hv
    exact ih doc hdoc hread
  | object members stop ih =>
    obtain ⟨-, vs, hvs, rfl⟩ := toJson_object_eq_ok.mp h
    refine toJson_object_eq_ok.mpr
      ⟨rfl, (Dict.ofList vs).entries, membersToJson_eq_ok.mpr ?_, by rw [Dict.ofList_entries]⟩
    rw [ofMembers_eq_map, List.forall₂_map_left_iff, List.forall₂_same]
    intro e he
    obtain ⟨m, hm, -, hread⟩ :=
      exists_left (membersToJson_eq_ok.mp hvs) e (Dict.mem_of_mem_ofList he)
    exact ⟨rfl, ih m hm hread⟩
  | leaf doc hlist hobject =>
    rwa [(ofJson_of_leaf h hlist hobject).1]

theorem proper_ofJson {doc : Document} (hdoc : doc.Proper) {v : Json} (h : doc.toJson = .ok v) :
    (ofJson v).Proper := by
  induction doc using induction generalizing v with
  | list items stop ih =>
    obtain ⟨-, vs, hvs, rfl⟩ := toJson_list_eq_ok.mp h
    rw [ofJson, ofItems_eq_map, proper_list, List.forall_mem_map]
    intro v hv
    obtain ⟨doc, hmem, hread⟩ := exists_left (itemsToJson_eq_ok.mp hvs) v hv
    exact ih doc hmem (proper_list.mp hdoc doc hmem) hread
  | object members stop ih =>
    obtain ⟨-, vs, hvs, rfl⟩ := toJson_object_eq_ok.mp h
    rw [ofJson, ofMembers_eq_map, proper_object, List.forall_mem_map, List.map_map]
    refine ⟨Dict.nodup_keys _, fun e he => ?_⟩
    obtain ⟨m, hm, -, hread⟩ :=
      exists_left (membersToJson_eq_ok.mp hvs) e (Dict.mem_of_mem_ofList he)
    exact ih m hm ((proper_object.mp hdoc).2 m hm) hread
  | leaf doc hlist hobject =>
    rwa [(ofJson_of_leaf h hlist hobject).1]

theorem eq_list_of_toJson {doc : Document} {vs : List Json} (h : doc.toJson = .ok (.list vs)) :
    ∃ items, doc = .list items none ∧ itemsToJson items = .ok vs := by
  cases doc with
  | list items stop =>
    obtain ⟨rfl, ws, hws, heq⟩ := toJson_list_eq_ok.mp h
    cases heq
    exact ⟨items, rfl, hws⟩
  | object members stop =>
    obtain ⟨-, ws, -, heq⟩ := toJson_object_eq_ok.mp h
    cases heq
  | null | boolean | integer | real | text | unfit | broken => cases h

theorem eq_object_of_toJson {doc : Document} {entries : List (String × Json)}
    (h : doc.toJson = .ok (.object entries)) : ∃ members vs, doc = .object members none ∧
      membersToJson members = .ok vs ∧ entries = (Dict.ofList vs).entries := by
  cases doc with
  | list items stop =>
    obtain ⟨-, ws, -, heq⟩ := toJson_list_eq_ok.mp h
    cases heq
  | object members stop =>
    obtain ⟨rfl, ws, hws, heq⟩ := toJson_object_eq_ok.mp h
    cases heq
    exact ⟨members, ws, rfl, hws, rfl⟩
  | null | boolean | integer | real | text | unfit | broken => cases h

theorem ofJson_of_toJson {doc : Document} {v : Json} (h : doc.toJson = .ok v)
    (hlist : ∀ vs, v ≠ .list vs) (hobject : ∀ members, v ≠ .object members) : ofJson v = doc := by
  cases doc with
  | list items stop =>
    obtain ⟨-, vs, -, rfl⟩ := toJson_list_eq_ok.mp h
    exact absurd rfl (hlist vs)
  | object members stop =>
    obtain ⟨-, vs, -, rfl⟩ := toJson_object_eq_ok.mp h
    exact absurd rfl (hobject _)
  | unfit | broken => cases h
  | null | boolean | integer | real | text =>
    cases h
    rfl

theorem faultOfItems?_eq_none {docs : List Document} (h : ∀ doc ∈ docs, doc.fault? = none) :
    faultOfItems? docs = none := by
  induction docs with
  | nil => rfl
  | cons doc docs ih =>
    obtain ⟨hdoc, hdocs⟩ := List.forall_mem_cons.mp h
    rw [faultOfItems?, hdoc, ih hdocs]
    rfl

theorem faultOfMembers?_eq_none {docs : List (String × Document)}
    (h : ∀ m ∈ docs, m.2.fault? = none) : faultOfMembers? docs = none := by
  induction docs with
  | nil => rfl
  | cons m docs ih =>
    obtain ⟨hm, hdocs⟩ := List.forall_mem_cons.mp h
    rw [faultOfMembers?, hm, ih hdocs]
    rfl

/-- reading did not stop inside what has a value -/
theorem fault?_of_toJson {doc : Document} {v : Json} (h : doc.toJson = .ok v) :
    doc.fault? = none := by
  induction doc using induction generalizing v with
  | list items stop ih =>
    obtain ⟨rfl, vs, hvs, -⟩ := toJson_list_eq_ok.mp h
    have hitems : ∀ doc ∈ items, doc.fault? = none := fun doc hdoc => by
      obtain ⟨w, -, hw⟩ := exists_right (itemsToJson_eq_ok.mp hvs) doc hdoc
      exact ih doc hdoc hw
    rw [fault?, faultOfItems?_eq_none hitems]
    rfl
  | object members stop ih =>
    obtain ⟨rfl, vs, hvs, -⟩ := toJson_object_eq_ok.mp h
    have hmembers : ∀ m ∈ members, m.2.fault? = none := fun m hm => by
      obtain ⟨e, -, -, he⟩ := exists_right (membersToJson_eq_ok.mp hvs) m hm
      exact ih m hm he
    rw [fault?, faultOfMembers?_eq_none hmembers]
    rfl
  | leaf doc hlist hobject => exact (ofJson_of_leaf h hlist hobject).2

theorem proper_ofJson_object {members : List (String × Json)} :
    (ofJson (.object members)).Proper ↔
      (members.map Prod.fst).Nodup ∧ ∀ e ∈ members, (ofJson e.2).Proper := by
  rw [ofJson, ofMembers_eq_map, proper_object, List.forall_mem_map, List.map_map]
  exact Iff.rfl

theorem ofMembers_append (a b : List (String × Json)) :
    ofMembers (a ++ b) = ofMembers a ++ ofMembers b := by
  simp [ofMembers_eq_map]

end Document

namespace Decoder

open Document (Proper)

variable {α β : Type}

/-- `d` reads `v` from what `f` writes for it, which is a proper document -/
structure Recovers (d : Decoder α) (f : α → Json) (v : α) : Prop where
  read : ∀ origin, d origin (Document.ofJson (f v)) = .ok v
  proper : (Document.ofJson (f v)).Proper

/-! ### single values -/

theorem recovers_text (s : String) : Recovers text .text s := ⟨fun _ => rfl, trivial⟩

theorem recovers_json : ReadsFrom Proper (Recovers json fun v => v) json := by
  intro origin doc v hdoc h
  have hv : doc.toJson = .ok v := ok_of_mapError h
  refine ⟨fun origin => ?_, Document.proper_ofJson hdoc hv⟩
  show (Document.ofJson v).toJson.mapError _ = _
  rw [Document.toJson_ofJson hv]
  rfl

theorem readsFrom_real : ReadsFrom Proper (fun x => x.isFinite = true) real := by
  intro origin doc x hdoc h
  unfold real at h
  split at h
  · cases h
    exact Json.isFinite_ofInteger hdoc.1 hdoc.2
  · cases h
    exact hdoc
  · cases h

theorem recovers_real {x : Float} (h : x.isFinite = true) : Recovers real Json.ofReal x := by
  have hx := Json.ofReal_of_isFinite h
  refine ⟨fun origin => ?_, ?_⟩
  · rw [hx]
    rfl
  · rw [hx]
    exact h

/-! ### lists and dictionaries -/

section
variable {d : Decoder α} {f : α → Json}

theorem items_ofItems {origin : Origin} {vs : List α} (h : ∀ v ∈ vs, Recovers d f v) :
    items d origin (Document.ofItems (vs.map f)) = .ok vs := by
  induction vs with
  | nil => rfl
  | cons v vs ih =>
    obtain ⟨hv, hvs⟩ := List.forall_mem_cons.mp h
    rw [List.map_cons, Document.ofItems, items, hv.read, ih hvs]
    rfl

theorem Recovers.list {vs : List α} (h : ∀ v ∈ vs, Recovers d f v) :
    Recovers (Decoder.list d) (fun vs => .list (vs.map f)) vs := by
  refine ⟨fun origin => ?_, ?_⟩
  · rw [Document.ofJson, Decoder.list, items_ofItems h]
    rfl
  · rw [Document.ofJson, Document.ofItems_eq_map, Document.proper_list, List.map_map,
      List.forall_mem_map]
    exact fun v hv => (h v hv).proper

theorem entries_ofMembers {origin : Origin} {acc : Dict α} {l : List (String × α)}
    (h : ∀ e ∈ l, Recovers d f e.2) :
    entries d origin acc (Document.ofMembers (l.map fun e => (e.1, f e.2)))
      = .ok (l.foldl (fun acc e => acc.insert e.1 e.2) acc) := by
  induction l generalizing acc with
  | nil => rfl
  | cons e l ih =>
    obtain ⟨he, hl⟩ := List.forall_mem_cons.mp h
    rw [List.map_cons, Document.ofMembers, entries, he.read]
    exact ih hl

theorem Recovers.dict {dict : Dict α} (h : ∀ e ∈ dict.entries, Recovers d f e.2) :
    Recovers (Decoder.dict d) (Json.ofDict f) dict := by
  refine ⟨fun origin => ?_, ?_⟩
  · rw [Json.ofDict, Document.ofJson, Decoder.dict, entries_ofMembers h]
    exact congrArg Except.ok (Dict.ofList_entries dict)
  · rw [Json.ofDict, Document.proper_ofJson_object, List.map_map, List.forall_mem_map]
    exact ⟨Dict.nodup_keys dict, fun e he => (h e he).proper⟩

/-! ### records -/

section
variable {slots : List (Slot β)} {origin : Origin} {seen : List String} {key : String} {b b' : β}
  {set : α → β → β}

theorem Recovers.fill {v : α} (h : Recovers d f v) :
    (Slot.of key d set).fill origin (Document.ofJson (f v)) b = .ok (set v b) := by
  show (d origin (Document.ofJson (f v))).map _ = _
  rw [h.read]
  rfl

theorem fillMembers_member {slot : Slot β} {doc : Document} {rest : List (String × Document)}
    (hslot : slots.find? (fun s => s.key == key) = some slot) (hseen : key ∉ seen)
    (hfill : slot.fill origin doc b = .ok b') :
    fillMembers slots origin seen ((key, doc) :: rest) b
      = fillMembers slots origin (key :: seen) rest b' := by
  rw [fillMembers, hslot]
  dsimp only
  rw [if_neg (by simpa using hseen), hfill]
  rfl

theorem recovers_record {type : String} {blank : β}
    {finish : (Nat → String → DecodeError) → β → Except DecodeError α} {v : α}
    {members : List (String × Json)} (hf : f v = .object members)
    (hkeys : (members.map Prod.fst).Nodup) (hproper : ∀ e ∈ members, (Document.ofJson e.2).Proper)
    (hfill : ∀ origin, fillMembers slots origin [] (Document.ofMembers members) blank = .ok b)
    (hfinish : ∀ missing, finish missing b = .ok v) :
    Recovers (record type slots blank finish) f v := by
  refine ⟨fun origin => ?_, ?_⟩
  · rw [hf, Document.ofJson, record, hfill]
    exact hfinish _
  · rw [hf]
    exact Document.proper_ofJson_object.mpr ⟨hkeys, hproper⟩

end

end

end Decoder

end Figures
