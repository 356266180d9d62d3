import Figures.Param.Basic
import Figures.Proofs.Json.Codec

/-!
# Parameters are read back

* `Setting.recovers_decoder`    numbers and texts are told apart again
* `Flag.recovers_decoder`       what was no boolean is none when it is read again
* `Position.recovers_decoder`   what was no point is none
* `Params.recovers_decoder`     parameters

A malformed position is kept as a value, with its members in ascending order. It would be read as a
point then if a repeated coordinate had been the only reason against it before.
-/

namespace Figures

open Decoder
open Document (Proper)

namespace Setting

theorem recovers_number {x : Float} (h : x.isFinite = true) :
    Recovers decoder toJson (.number x) := by
  have hx : toJson (.number x) = .real x := Json.ofReal_of_isFinite h
  refine ⟨fun origin => ?_, ?_⟩
  · rw [hx]
    rfl
  · rw [hx]
    exact h

theorem recovers_decoder : ReadsFrom Proper (Recovers decoder toJson) decoder := by
  intro origin doc v hdoc h
  unfold decoder at h
  obtain ⟨_, -, h⟩ := ok_of_bind h
  split at h
  · cases h
    exact recovers_number (Json.isFinite_ofInteger hdoc.1 hdoc.2)
  · cases h
    exact recovers_number hdoc
  · cases h
    exact ⟨fun _ => rfl, trivial⟩
  · obtain ⟨_, -, h⟩ := ok_of_bind h
    cases h

end Setting

namespace Flag

theorem recovers_decoder : ReadsFrom Proper (Recovers decoder toJson) decoder := by
  intro origin doc flag hdoc h
  unfold decoder at h
  split at h
  · cases h
    exact ⟨fun _ => rfl, trivial⟩
  · rename_i hboolean
    obtain ⟨v, hv, rfl⟩ := ok_of_map h
    have hrecovers := recovers_json origin doc v hdoc hv
    refine ⟨fun origin => ?_, hrecovers.proper⟩
    have hnot : ∀ b, Document.ofJson v ≠ .boolean b := by
      intro b hb
      obtain rfl : v = .boolean b := by cases v <;> cases hb; rfl
      exact hboolean b (Document.ofJson_of_toJson (ok_of_mapError hv) nofun nofun).symm
    show decoder origin (Document.ofJson v) = _
    unfold decoder
    split
    · rename_i b hb
      exact absurd hb (hnot b)
    · exact congrArg (Except.map malformed) (hrecovers.read origin)

end Flag

namespace Point

theorem recovers_decoder {p : Point} (hx : p.x.isFinite = true) (hy : p.y.isFinite = true) :
    Recovers decoder toJson p := by
  have hrx := recovers_real hx
  have hry := recovers_real hy
  refine recovers_record (b := (some p.x, some p.y)) rfl (by simp)
    (by simp [hrx.proper, hry.proper]) (fun origin => ?_) fun _ => rfl
  rw [Document.ofMembers, Document.ofMembers, Document.ofMembers,
    fillMembers_member rfl (by decide) hrx.fill, fillMembers_member rfl (by decide) hry.fill]
  rfl

def slots : List (Slot (Option Float × Option Float)) :=
  [.of "x" real fun x b => (some x, b.2), .of "y" real fun y b => (b.1, some y)]

/-- a number stands among the members under a key -/
def Has (members : List (String × Document)) (key : String) : Prop :=
  ∃ doc x, (key, doc) ∈ members ∧ real .value doc = .ok x

theorem Has.cons {members : List (String × Document)} {key : String} (h : Has members key)
    (m : String × Document) : Has (m :: members) key := by
  obtain ⟨doc, x, hdoc, hx⟩ := h
  exact ⟨doc, x, List.mem_cons_of_mem m hdoc, hx⟩

/-- the coordinates that are read stand among the members -/
theorem has_of_fill {seen : List String} {members : List (String × Document)}
    {b b' : Option Float × Option Float} (h : fillMembers slots .value seen members b = .ok b') :
    (b'.1.isSome = true → b.1.isSome = true ∨ Has members "x") ∧
      (b'.2.isSome = true → b.2.isSome = true ∨ Has members "y") := by
  induction members generalizing seen b with
  | nil =>
    cases h
    exact ⟨.inl, .inl⟩
  | cons m members ih =>
    unfold fillMembers at h
    split at h
    · obtain ⟨_, -, h⟩ := ok_of_bind h
      obtain ⟨hx, hy⟩ := ih h
      exact ⟨fun hs => (hx hs).imp_right (·.cons m), fun hs => (hy hs).imp_right (·.cons m)⟩
    · rename_i slot hslot
      split at h
      · cases h
      · obtain ⟨c, hc, h⟩ := ok_of_bind h
        obtain ⟨hx, hy⟩ := ih h
        have hkey : slot.key = m.1 := by simpa using List.find?_some hslot
        have hmem := List.mem_of_find?_eq_some hslot
        simp only [slots, List.mem_cons, List.not_mem_nil, or_false] at hmem
        rcases hmem with rfl | rfl
        · obtain ⟨x, hread, rfl⟩ := ok_of_map hc
          have hhas : Has (m :: members) "x" :=
            ⟨m.2, x, List.mem_cons.mpr (.inl (Prod.ext hkey rfl)), hread⟩
          exact ⟨fun _ => .inr hhas, fun hs => (hy hs).imp_right (·.cons m)⟩
        · obtain ⟨y, hread, rfl⟩ := ok_of_map hc
          have hhas : Has (m :: members) "y" :=
            ⟨m.2, y, List.mem_cons.mpr (.inl (Prod.ext hkey rfl)), hread⟩
          exact ⟨fun hs => (hx hs).imp_right (·.cons m), fun _ => .inr hhas⟩

theorem isSome_of_require {α : Type} {missing : Nat → String → DecodeError} {place : Nat}
    {key : String} {o : Option α} {v : α} (h : require missing place key o = .ok v) :
    o.isSome = true := by
  cases o with
  | none => cases h
  | some v => rfl

/-- coordinates among members whose keys differ are read, if nothing is broken off -/
theorem exists_fill {seen : List String} {members : List (String × Document)}
    {b : Option Float × Option Float} (hkeys : (members.map Prod.fst).Nodup)
    (hseen : ∀ m ∈ members, m.1 ∉ seen)
    (hread : ∀ m ∈ members, m.1 = "x" ∨ m.1 = "y" → ∃ x, real .value m.2 = .ok x)
    (hfault : ∀ m ∈ members, m.2.fault? = none) :
    ∃ b', fillMembers slots .value seen members b = .ok b' ∧
      (b.1.isSome = true ∨ "x" ∈ members.map Prod.fst → b'.1.isSome = true) ∧
      (b.2.isSome = true ∨ "y" ∈ members.map Prod.fst → b'.2.isSome = true) := by
  induction members generalizing seen b with
  | nil => exact ⟨b, rfl, by simp, by simp⟩
  | cons m members ih =>
    obtain ⟨key, doc⟩ := m
    obtain ⟨hnew, hnodup⟩ := List.nodup_cons.mp hkeys
    obtain ⟨hm, hrest⟩ := List.forall_mem_cons.mp hseen
    obtain ⟨hdoc, hreads⟩ := List.forall_mem_cons.mp hread
    obtain ⟨hwhole, hfaults⟩ := List.forall_mem_cons.mp hfault
    have hseen' : ∀ m ∈ members, m.1 ∉ key :: seen := fun m' hmem h =>
      (List.mem_cons.mp h).elim
        (fun heq => hnew (List.mem_map.mpr ⟨m', hmem, heq⟩)) (hrest m' hmem)
    rw [List.map_cons]
    by_cases hx : key = "x"
    · subst hx
      obtain ⟨x, hx⟩ := hdoc (.inl rfl)
      have hslot : slots.find? (fun s => s.key == "x")
          = some (Slot.of "x" real fun x b => (some x, b.2)) := rfl
      have hfill : (Slot.of "x" real fun x b => (some x, b.2)).fill .value doc b
          = .ok (some x, b.2) := congrArg (Except.map _) hx
      obtain ⟨b', hb', hxs, hys⟩ := ih (b := (some x, b.2)) hnodup hseen' hreads hfaults
      rw [fillMembers_member hslot hm hfill]
      exact ⟨b', hb', fun _ => hxs (.inl rfl), fun h => hys (by simpa using h)⟩
    · by_cases hy : key = "y"
      · subst hy
        obtain ⟨y, hy⟩ := hdoc (.inr rfl)
        have hslot : slots.find? (fun s => s.key == "y")
            = some (Slot.of "y" real fun y b => (b.1, some y)) := rfl
        have hfill : (Slot.of "y" real fun y b => (b.1, some y)).fill .value doc b
            = .ok (b.1, some y) := congrArg (Except.map _) hy
        obtain ⟨b', hb', hxs, hys⟩ := ih (b := (b.1, some y)) hnodup hseen' hreads hfaults
        rw [fillMembers_member hslot hm hfill]
        exact ⟨b', hb', fun h => hxs (by simpa using h), fun _ => hys (.inl rfl)⟩
      · have hnone : slots.find? (fun s => s.key == key) = none := by
          simp [slots, Slot.of, Ne.symm hx, Ne.symm hy]
        obtain ⟨b', hb', hxs, hys⟩ := ih (b := b) hnodup hrest hreads hfaults
        refine ⟨b', ?_, fun h => hxs (by simpa [Ne.symm hx] using h),
          fun h => hys (by simpa [Ne.symm hy] using h)⟩
        rw [fillMembers, hnone]
        dsimp only
        rw [hwhole]
        exact hb'

theorem real_of_value {doc : Document} {v : Json} (hv : doc.toJson = .ok v) {x : Float}
    (h : real .value (Document.ofJson v) = .ok x) : real .value doc = .ok x := by
  have hlist : ∀ vs, v ≠ .list vs := fun vs heq => by rw [heq] at h; cases h
  have hobject : ∀ members, v ≠ .object members := fun members heq => by rw [heq] at h; cases h
  rwa [Document.ofJson_of_toJson hv hlist hobject] at h

theorem eq_pair_of_list {docs : List Document} {p : Point}
    (h : decoder .value (.list docs none) = .ok p) :
    ∃ dx dy x y, docs = [dx, dy] ∧ real .value dx = .ok x ∧ real .value dy = .ok y := by
  obtain ⟨⟨b, rest⟩, hfill, h⟩ := ok_of_bind h
  match docs, hfill, h with
  | [], hfill, h =>
    cases hfill
    cases h
  | [dx], hfill, h =>
    obtain ⟨c, hc, hfill⟩ := ok_of_bind hfill
    obtain ⟨x, -, rfl⟩ := ok_of_map hc
    cases hfill
    cases h
  | dx :: dy :: docs, hfill, h =>
    obtain ⟨c, hc, hfill⟩ := ok_of_bind hfill
    obtain ⟨x, hx, rfl⟩ := ok_of_map hc
    obtain ⟨c, hc, hfill⟩ := ok_of_bind hfill
    obtain ⟨y, hy, rfl⟩ := ok_of_map hc
    cases hfill
    cases rest with
    | nil => exact ⟨dx, dy, x, y, rfl, hx, hy⟩
    | cons doc docs =>
      dsimp only at h
      rw [if_neg (by simp)] at h
      cases doc <;> cases h

/-- a number that stands among the entries of a value stands among the members of its document -/
theorem has_of_value {members : List (String × Document)} {vs : List (String × Json)}
    (hvs : Document.membersToJson members = .ok vs) {key : String}
    (h : Has (Document.ofMembers (Dict.ofList vs).entries) key) : Has members key := by
  obtain ⟨_, x, hmem, hx⟩ := h
  rw [Document.ofMembers_eq_map] at hmem
  obtain ⟨e, he, heq⟩ := List.mem_map.mp hmem
  cases heq
  obtain ⟨m, hm, hkey, hread⟩ := Document.exists_left (Document.membersToJson_eq_ok.mp hvs) e
    (Dict.mem_of_mem_ofList he)
  rw [← hkey]
  exact ⟨m.2, x, hm, real_of_value hread hx⟩

theorem Has.read {members : List (String × Document)} {key : String} (h : Has members key)
    (hkeys : (members.map Prod.fst).Nodup) {m : String × Document} (hm : m ∈ members)
    (hkey : m.1 = key) : ∃ x, real .value m.2 = .ok x := by
  obtain ⟨doc, x, hdoc, hx⟩ := h
  obtain rfl := List.inj_on_of_nodup_map hkeys hm hdoc hkey
  exact ⟨x, hx⟩

theorem Has.mem {members : List (String × Document)} {key : String} (h : Has members key) :
    key ∈ members.map Prod.fst := by
  obtain ⟨doc, x, hdoc, -⟩ := h
  exact List.mem_map_of_mem hdoc

theorem decoder_list_of_value {docs : List Document} {vs : List Json}
    (hvs : Document.itemsToJson docs = .ok vs) {p : Point}
    (h : decoder .value (Document.ofJson (.list vs)) = .ok p) :
    ∃ p', decoder .value (.list docs none) = .ok p' := by
  obtain ⟨dx, dy, x, y, hpair, hx, hy⟩ := eq_pair_of_list h
  rw [Document.ofItems_eq_map] at hpair
  obtain ⟨vx, ws, rfl, rfl, hrest⟩ := List.map_eq_cons_iff.mp hpair
  obtain ⟨vy, ws, rfl, rfl, hnil⟩ := List.map_eq_cons_iff.mp hrest
  obtain rfl := List.map_eq_nil_iff.mp hnil
  rw [Document.itemsToJson_eq_ok] at hvs
  obtain ⟨ex, docs, hex, htail, rfl⟩ := List.forall₂_cons_right_iff.mp hvs
  obtain ⟨ey, docs, hey, hend, rfl⟩ := List.forall₂_cons_right_iff.mp htail
  obtain rfl := List.forall₂_nil_right_iff.mp hend
  have hfill : fillItems .value slots [ex, ey] (none, none) = .ok ((some x, some y), []) := by
    simp only [fillItems, slots, Slot.of, real_of_value hex hx, real_of_value hey hy]
    rfl
  exact ⟨⟨x, y⟩, congrArg (· >>= _) hfill⟩

theorem has_of_decoder {members : List (String × Document)} {p : Point}
    (h : decoder .value (.object members none) = .ok p) : Has members "x" ∧ Has members "y" := by
  obtain ⟨b, hfill, h⟩ := ok_of_bind h
  obtain ⟨-, -, h⟩ := ok_of_bind h
  obtain ⟨x, hx, h⟩ := ok_of_bind h
  obtain ⟨y, hy, -⟩ := ok_of_bind h
  obtain ⟨hhasX, hhasY⟩ := has_of_fill hfill
  exact ⟨(hhasX (isSome_of_require hx)).resolve_left nofun,
    (hhasY (isSome_of_require hy)).resolve_left nofun⟩

theorem decoder_of_value {doc : Document} (hdoc : doc.Proper) {v : Json} (hv : doc.toJson = .ok v)
    {p : Point} (h : decoder .value (Document.ofJson v) = .ok p) :
    ∃ p', decoder .value doc = .ok p' := by
  cases v with
  | null | boolean | integer | real | text => cases h
  | list vs =>
    obtain ⟨docs, rfl, hdocs⟩ := Document.eq_list_of_toJson hv
    exact decoder_list_of_value hdocs h
  | object entries =>
    obtain ⟨members, vs, rfl, hvs, rfl⟩ := Document.eq_object_of_toJson hv
    obtain ⟨hkeys, -⟩ := Document.proper_object.mp hdoc
    obtain ⟨hx, hy⟩ := has_of_decoder h
    have hxs : Has members "x" := has_of_value hvs hx
    have hys : Has members "y" := has_of_value hvs hy
    have hwhole : ∀ m ∈ members, m.2.fault? = none := by
      intro m hm
      obtain ⟨e, -, -, he⟩ := Document.exists_right (Document.membersToJson_eq_ok.mp hvs) m hm
      exact Document.fault?_of_toJson he
    obtain ⟨b, hb, hxb, hyb⟩ := exists_fill (b := (none, none)) hkeys (fun _ _ => List.not_mem_nil)
      (fun m hm hkey => hkey.elim (hxs.read hkeys hm) (hys.read hkeys hm)) hwhole
    obtain ⟨x', hx'⟩ := Option.isSome_iff_exists.mp (hxb (.inr hxs.mem))
    obtain ⟨y', hy'⟩ := Option.isSome_iff_exists.mp (hyb (.inr hys.mem))
    refine ⟨⟨x', y'⟩, ?_⟩
    obtain rfl : b = (some x', some y') := Prod.ext hx' hy'
    exact congrArg (· >>= _) hb

end Point

theorem Point.finite_of_decoder : ReadsFrom Proper
    (fun p : Point => p.x.isFinite = true ∧ p.y.isFinite = true) Point.decoder := by
  refine readsFrom_record (I := fun b : Option Float × Option Float =>
    (∀ x, b.1 = some x → x.isFinite = true) ∧ (∀ y, b.2 = some y → y.isFinite = true))
    Document.hereditary_proper ⟨nofun, nofun⟩ ?_ ?_
  · refine List.forall_mem_cons.mpr ⟨?_, List.forall_mem_singleton.mpr ?_⟩
    · exact Slot.keepsFrom_of readsFrom_real fun x b hx hb =>
        ⟨fun _ h => Option.some.inj h ▸ hx, hb.2⟩
    · exact Slot.keepsFrom_of readsFrom_real fun y b hy hb =>
        ⟨hb.1, fun _ h => Option.some.inj h ▸ hy⟩
  · rintro missing ⟨x, y⟩ p ⟨hx, hy⟩ h
    cases x with
    | none => cases h
    | some x =>
      cases y with
      | none => cases h
      | some y =>
        cases h
        exact ⟨hx x rfl, hy y rfl⟩

namespace Position

theorem decoder_of_toJson {origin : Origin} {doc : Document} {v : Json} (hv : doc.toJson = .ok v) :
    decoder origin doc = match Point.decoder .value doc with
      | .ok p => .ok (known p)
      | .error _ => .ok (malformed v) := by
  show (doc.toJson.mapError DecodeError.fault >>= _) = _
  rw [hv]
  rfl

theorem recovers_decoder : ReadsFrom Proper (Recovers decoder toJson) decoder := by
  intro origin doc position hdoc h
  obtain ⟨v, hv, -⟩ := ok_of_bind h
  have hvalue : doc.toJson = .ok v := ok_of_mapError hv
  rw [decoder_of_toJson hvalue] at h
  split at h
  · rename_i p hp
    cases h
    obtain ⟨hx, hy⟩ := Point.finite_of_decoder .value doc p hdoc hp
    have hpoint := Point.recovers_decoder hx hy
    have hobject : toJson (known p) = .object [("x", .real p.x), ("y", .real p.y)] := by
      rw [toJson, Point.toJson, Json.ofReal_of_isFinite hx, Json.ofReal_of_isFinite hy]
    obtain ⟨w, hw⟩ : ∃ w, (Document.ofJson (toJson (known p))).toJson = .ok w := by
      rw [hobject]
      exact ⟨_, rfl⟩
    refine ⟨fun origin => ?_, hpoint.proper⟩
    rw [decoder_of_toJson hw, show Point.decoder .value (Document.ofJson (toJson (known p))) = .ok p
      from hpoint.read .value]
  · rename_i e he
    cases h
    have hjson := recovers_json origin doc v hdoc hv
    refine ⟨fun origin => ?_, hjson.proper⟩
    show decoder origin (Document.ofJson v) = _
    rw [decoder_of_toJson (Document.toJson_ofJson hvalue)]
    cases hp : Point.decoder .value (Document.ofJson v) with
    | error e => rfl
    | ok p =>
      obtain ⟨p', hp'⟩ := Point.decoder_of_value hdoc hvalue hp
      cases hp'.symm.trans he

end Position

namespace Params

/-- all entries are read back -/
structure Recovered (p : Params) : Prop where
  values : ∀ e ∈ p.values.entries, Recovers Setting.decoder Setting.toJson e.2
  visibility : ∀ e ∈ p.visibility.entries, Recovers Flag.decoder Flag.toJson e.2
  positions : ∀ e ∈ p.positions.entries, Recovers Position.decoder Position.toJson e.2

theorem recovered_decoder : ReadsFrom Proper Recovered decoder := by
  have hempty : ∀ {α : Type} {P : α → Prop}, ∀ e ∈ (Dict.empty : Dict α).entries, P e.2 :=
    fun _ he => absurd he List.not_mem_nil
  refine readsFrom_record (I := Recovered) Document.hereditary_proper ⟨hempty, hempty, hempty⟩ ?_
    fun _ p q hp h => Except.ok.inj h ▸ hp
  have hdict {α : Type} {P : α → Prop} {d : Decoder α} (h : ReadsFrom Proper P d) :=
    h.dict Document.hereditary_proper
  simp only [List.forall_mem_cons, List.not_mem_nil, false_imp_iff, implies_true, and_true]
  refine ⟨?labels, ?values, ?visibility, ?positions⟩
  case labels => exact Slot.keepsFrom_of (reads_true _).from fun _ _ _ hp => ⟨hp.1, hp.2, hp.3⟩
  case values =>
    exact Slot.keepsFrom_of (hdict Setting.recovers_decoder) fun _ _ hv hp => ⟨hv, hp.2, hp.3⟩
  case visibility =>
    exact Slot.keepsFrom_of (hdict Flag.recovers_decoder) fun _ _ hv hp => ⟨hp.1, hv, hp.3⟩
  case positions =>
    exact Slot.keepsFrom_of (hdict Position.recovers_decoder) fun _ _ hv hp => ⟨hp.1, hp.2, hv⟩

theorem recovers_decoder : ReadsFrom Proper (Recovers decoder toJson) decoder := by
  intro origin doc p hdoc h
  obtain ⟨hvalues, hvisibility, hpositions⟩ := recovered_decoder origin doc p hdoc h
  have hlabels : Recovers (Decoder.dict Decoder.text) (Json.ofDict .text) p.labels :=
    .dict fun e _ => recovers_text e.2
  have hvalues := Recovers.dict hvalues
  have hvisibility := Recovers.dict hvisibility
  have hpositions := Recovers.dict hpositions
  refine recovers_record (b := p) rfl (by simp)
    (by simp [hlabels.proper, hvalues.proper, hvisibility.proper, hpositions.proper])
    (fun origin => ?_) fun _ => rfl
  rw [Document.ofMembers, Document.ofMembers, Document.ofMembers, Document.ofMembers,
    Document.ofMembers, fillMembers_member rfl (by decide) hlabels.fill,
    fillMembers_member rfl (by decide) hvalues.fill,
    fillMembers_member rfl (by decide) hvisibility.fill,
    fillMembers_member rfl (by decide) hpositions.fill]
  rfl

end Params

end Figures
