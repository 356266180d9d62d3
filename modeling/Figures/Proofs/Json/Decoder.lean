import Figures.Json.Decoder
import Figures.Proofs.Except

/-!
# What decoders read

* `Decoder.Reads P d`      whatever `d` reads satisfies `P`
* `Decoder.ReadsFrom Q P d`  whatever `d` reads from a document that satisfies `Q` satisfies `P`
* `ReadsFrom.list`, `dict`, `record`   lists, dictionaries and records, from their elements and
  slots
* `reads_json`             an object that is read has no key twice
-/

namespace Figures

def Json.Keyed (v : Json) : Prop :=
  ∀ members, v = .object members → (members.map Prod.fst).Nodup

theorem Dict.nodup_keys {α : Type} (d : Dict α) : (d.entries.map Prod.fst).Nodup := by
  rw [List.nodup_iff_pairwise_ne, List.pairwise_map]
  exact d.ascending.imp fun h heq => absurd (heq ▸ h) (String.lt_irrefl _)

/-- what holds of a document holds of its parts -/
structure Document.Hereditary (Q : Document → Prop) : Prop where
  item : ∀ items stop, Q (.list items stop) → ∀ doc ∈ items, Q doc
  member : ∀ members stop, Q (.object members stop) → ∀ e ∈ members, Q e.2

theorem Document.hereditary_true : Hereditary fun _ => True :=
  ⟨fun _ _ _ _ _ => trivial, fun _ _ _ _ _ => trivial⟩

namespace Decoder

variable {α β : Type}

/-- whatever a decoder reads satisfies `P` -/
def Reads (P : α → Prop) (d : Decoder α) : Prop := ∀ origin doc v, d origin doc = .ok v → P v

/-- whatever a decoder reads from a document that satisfies `Q` satisfies `P` -/
def ReadsFrom (Q : Document → Prop) (P : α → Prop) (d : Decoder α) : Prop :=
  ∀ origin doc v, Q doc → d origin doc = .ok v → P v

theorem Reads.from {Q : Document → Prop} {P : α → Prop} {d : Decoder α} (h : Reads P d) :
    ReadsFrom Q P d := fun origin doc v _ hv => h origin doc v hv

theorem reads_of_from {P : α → Prop} {d : Decoder α} (h : ReadsFrom (fun _ => True) P d) :
    Reads P d := fun origin doc v hv => h origin doc v trivial hv

theorem reads_true (d : Decoder α) : Reads (fun _ => True) d := fun _ _ _ _ => trivial

theorem reads_json : Reads Json.Keyed json := by
  intro origin doc v h members hobj
  have hv : doc.toJson = .ok v := ok_of_mapError h
  subst hobj
  cases doc with
  | object docs stop =>
    rw [Document.toJson] at hv
    obtain ⟨vs, -, hv⟩ := ok_of_bind hv
    split at hv
    · cases hv
    · cases hv
      exact Dict.nodup_keys _
  | list docs stop =>
    rw [Document.toJson] at hv
    obtain ⟨vs, -, hv⟩ := ok_of_bind hv
    split at hv <;> cases hv
  | null | boolean | integer | real | text | unfit | broken =>
    rw [Document.toJson] at hv
    cases hv

/-! ### lists and dictionaries -/

section
variable {Q : Document → Prop} {P : α → Prop} {d : Decoder α}

theorem readsFrom_items (h : ReadsFrom Q P d) {origin : Origin} {docs : List Document} {vs : List α}
    (hdocs : ∀ doc ∈ docs, Q doc) (hvs : items d origin docs = .ok vs) : ∀ v ∈ vs, P v := by
  induction docs generalizing vs with
  | nil =>
    cases hvs
    exact fun v hv => absurd hv List.not_mem_nil
  | cons doc docs ih =>
    obtain ⟨hdoc, hdocs⟩ := List.forall_mem_cons.mp hdocs
    obtain ⟨v, hv, hvs⟩ := ok_of_bind hvs
    obtain ⟨rest, hrest, hvs⟩ := ok_of_bind hvs
    cases hvs
    exact List.forall_mem_cons.mpr ⟨h origin doc v hdoc hv, ih hdocs hrest⟩

theorem ReadsFrom.list (hQ : Document.Hereditary Q) (h : ReadsFrom Q P d) :
    ReadsFrom Q (fun vs => ∀ v ∈ vs, P v) (Decoder.list d) := by
  intro origin doc vs hdoc hvs
  unfold Decoder.list at hvs
  split at hvs
  · obtain ⟨ws, hws, hvs⟩ := ok_of_bind hvs
    obtain ⟨_, -, hvs⟩ := ok_of_bind hvs
    cases hvs
    exact readsFrom_items h (hQ.item _ _ hdoc) hws
  · cases hvs

theorem Reads.list (h : Reads P d) : Reads (fun vs => ∀ v ∈ vs, P v) (Decoder.list d) :=
  reads_of_from (h.from.list Document.hereditary_true)

theorem readsFrom_entries (h : ReadsFrom Q P d) {origin : Origin} {acc dict : Dict α}
    {members : List (String × Document)} (hmembers : ∀ e ∈ members, Q e.2)
    (hacc : ∀ e ∈ acc.entries, P e.2) (hdict : entries d origin acc members = .ok dict) :
    ∀ e ∈ dict.entries, P e.2 := by
  induction members generalizing acc with
  | nil =>
    cases hdict
    exact hacc
  | cons m members ih =>
    obtain ⟨hm, hmembers⟩ := List.forall_mem_cons.mp hmembers
    obtain ⟨v, hv, hdict⟩ := ok_of_bind hdict
    refine ih hmembers (fun e he => ?_) hdict
    rcases Dict.mem_put he with rfl | he
    · exact h origin m.2 v hm hv
    · exact hacc e he

theorem ReadsFrom.dict (hQ : Document.Hereditary Q) (h : ReadsFrom Q P d) :
    ReadsFrom Q (fun dict => ∀ e ∈ dict.entries, P e.2) (Decoder.dict d) := by
  intro origin doc dict hdoc hdict
  unfold Decoder.dict at hdict
  split at hdict
  · obtain ⟨result, hresult, hdict⟩ := ok_of_bind hdict
    obtain ⟨_, -, hdict⟩ := ok_of_bind hdict
    cases hdict
    exact readsFrom_entries h (hQ.member _ _ hdoc) (fun e he => absurd he List.not_mem_nil) hresult
  · cases hdict

theorem ReadsFrom.optional (h : ReadsFrom Q P d) :
    ReadsFrom Q (fun o => ∀ v, o = some v → P v) (Decoder.optional d) := by
  intro origin doc o hdoc ho v hv
  unfold Decoder.optional at ho
  split at ho
  · cases ho
    cases hv
  · obtain ⟨w, hw, rfl⟩ := ok_of_map ho
    cases hv
    exact h origin doc v hdoc hw

end

/-! ### records -/

section
variable {Q : Document → Prop} {I : β → Prop} {slots : List (Slot β)}

def Slot.Keeps (I : β → Prop) (slot : Slot β) : Prop :=
  ∀ origin doc b b', I b → slot.fill origin doc b = .ok b' → I b'

/-- a slot that keeps to `I` when it is filled from a document that satisfies `Q` -/
def Slot.KeepsFrom (Q : Document → Prop) (I : β → Prop) (slot : Slot β) : Prop :=
  ∀ origin doc b b', Q doc → I b → slot.fill origin doc b = .ok b' → I b'

theorem Slot.Keeps.from {slot : Slot β} (h : slot.Keeps I) : slot.KeepsFrom Q I :=
  fun origin doc b b' _ hb hfill => h origin doc b b' hb hfill

theorem Slot.keepsFrom_of {key : String} {d : Decoder α} {set : α → β → β} {P : α → Prop}
    (hd : ReadsFrom Q P d) (hset : ∀ v b, P v → I b → I (set v b)) :
    (Slot.of key d set).KeepsFrom Q I := by
  intro origin doc b b' hdoc hb h
  obtain ⟨v, hv, rfl⟩ := ok_of_map h
  exact hset v b (hd origin doc v hdoc hv) hb

theorem Slot.keeps_of {key : String} {d : Decoder α} {set : α → β → β} {P : α → Prop}
    (hd : Reads P d) (hset : ∀ v b, P v → I b → I (set v b)) : (Slot.of key d set).Keeps I := by
  intro origin doc b b' hb h
  exact keepsFrom_of (Q := fun _ => True) hd.from hset origin doc b b' trivial hb h

theorem fillMembers_keeps (hslots : ∀ slot ∈ slots, slot.KeepsFrom Q I) {origin : Origin}
    {seen : List String} {members : List (String × Document)} {b b' : β}
    (hmembers : ∀ e ∈ members, Q e.2) (hb : I b)
    (h : fillMembers slots origin seen members b = .ok b') : I b' := by
  induction members generalizing seen b with
  | nil =>
    cases h
    exact hb
  | cons m members ih =>
    obtain ⟨hm, hmembers⟩ := List.forall_mem_cons.mp hmembers
    unfold fillMembers at h
    split at h
    · obtain ⟨_, -, h⟩ := ok_of_bind h
      exact ih hmembers hb h
    · rename_i slot hslot
      split at h
      · cases h
      · obtain ⟨c, hc, h⟩ := ok_of_bind h
        exact ih hmembers
          (hslots slot (List.mem_of_find?_eq_some hslot) origin m.2 b c hm hb hc) h

theorem fillItems_keeps (hslots : ∀ slot ∈ slots, slot.KeepsFrom Q I) {origin : Origin}
    {docs : List Document} {b : β} {r : β × List Document} (hdocs : ∀ doc ∈ docs, Q doc) (hb : I b)
    (h : fillItems origin slots docs b = .ok r) : I r.1 := by
  induction slots generalizing docs b with
  | nil =>
    cases h
    exact hb
  | cons slot slots ih =>
    cases docs with
    | nil =>
      cases h
      exact hb
    | cons doc docs =>
      obtain ⟨hdoc, hdocs⟩ := List.forall_mem_cons.mp hdocs
      obtain ⟨c, hc, h⟩ := ok_of_bind h
      exact ih (fun s hs => hslots s (List.mem_cons_of_mem slot hs)) hdocs
        (hslots slot List.mem_cons_self origin doc b c hdoc hb hc) h

/-- a record satisfies what follows from an invariant of its slots -/
theorem readsFrom_record {P : α → Prop} {type : String} {blank : β}
    {finish : (Nat → String → DecodeError) → β → Except DecodeError α}
    (hQ : Document.Hereditary Q) (hblank : I blank) (hslots : ∀ slot ∈ slots, slot.KeepsFrom Q I)
    (hfinish : ∀ missing b v, I b → finish missing b = .ok v → P v) :
    ReadsFrom Q P (record type slots blank finish) := by
  intro origin doc v hdoc h
  unfold record at h
  split at h
  · obtain ⟨b, hb, h⟩ := ok_of_bind h
    obtain ⟨_, -, h⟩ := ok_of_bind h
    exact hfinish _ b v (fillMembers_keeps hslots (hQ.member _ _ hdoc) hblank hb) h
  · obtain ⟨⟨b, rest⟩, hr, h⟩ := ok_of_bind h
    -- with or without the check of the end, the record is made of the filled slots
    have hrest : ∀ {short : Nat → String → DecodeError} {rest : α → Except DecodeError α},
        (∀ w, rest w = .ok v → w = v) → (finish short b >>= rest) = .ok v → P v := by
      intro short rest hsame hv
      obtain ⟨w, hw, hv⟩ := ok_of_bind hv
      exact hsame w hv ▸
        hfinish short b w (fillItems_keeps hslots (hQ.item _ _ hdoc) hblank hr) hw
    dsimp only at h
    split at h
    · obtain ⟨_, -, h⟩ := ok_of_bind h
      refine hrest (fun w hw => ?_) h
      split at hw
      · cases hw
      · obtain ⟨_, -, hw⟩ := ok_of_bind hw
        cases hw
        rfl
    · refine hrest (fun w hw => ?_) h
      split at hw
      · cases hw
      · obtain ⟨_, -, hw⟩ := ok_of_bind hw
        cases hw
        rfl
  · cases h

theorem reads_record {P : α → Prop} {type : String} {blank : β}
    {finish : (Nat → String → DecodeError) → β → Except DecodeError α} (hblank : I blank)
    (hslots : ∀ slot ∈ slots, slot.Keeps I)
    (hfinish : ∀ missing b v, I b → finish missing b = .ok v → P v) :
    Reads P (record type slots blank finish) :=
  reads_of_from (readsFrom_record Document.hereditary_true hblank
    (fun slot hslot => (hslots slot hslot).from) hfinish)

end

end Decoder

end Figures
