import Figures.Blueprint.Basic
import Figures.Proofs.Json.Codec

/-!
# Blueprints are read back

* `ViewBox.recovers_decoder`     a size that is finite, whichever of its two forms it was read from
* `Shape.recovers_decoder`       an id, a kind and all other fields
* `Layer.recovers_decoder`       shapes in their order, at a height
* `Blueprint.recovers_decoder`   a blueprint of a finite size

A size may be given as a text that says `inf`; there is no number for it in a document.
-/

namespace Figures

open Decoder
open Document (Proper)

namespace ViewBox

def Finite (v : ViewBox) : Prop := v.width.isFinite = true ∧ v.height.isFinite = true

theorem ofSize_of_ok {width height : Float} {v : ViewBox} (h : ofSize width height = .ok v) :
    ofSize v.width v.height = .ok v := by
  have hsame := h
  rw [ofSize] at h
  split at h
  · cases h
    exact hsame
  · cases h

/-- a size that was read is positive in both directions -/
theorem ofSize_of_decoder {origin : Origin} {doc : Document} {v : ViewBox}
    (h : decoder origin doc = .ok v) : ofSize v.width v.height = .ok v := by
  unfold decoder at h
  obtain ⟨_, -, h⟩ := ok_of_bind h
  split at h
  · have h := ok_of_mapError h
    unfold ofText at h
    dsimp only at h
    split at h
    · exact ofSize_of_ok h
    · cases h
  · split at h
    · exact ofSize_of_ok (ok_of_mapError h)
    · cases h
  · cases h

theorem decoder_of_toJson {origin : Origin} {members : List (String × Document)} {w : Json}
    (hw : (Document.object members none).toJson = .ok w) :
    decoder origin (.object members none) = match sizeDecoder .value (.object members none) with
      | .ok (width, height) => (ofSize width height).mapError .mismatch
      | .error _ => .error (.mismatch (.noVariant "RawViewBox")) := by
  show ((Document.object members none).toJson.mapError DecodeError.fault >>= _) = _
  rw [hw]
  rfl

theorem recovers_sizeDecoder {v : ViewBox} (hv : v.Finite) :
    Recovers sizeDecoder (fun p => toJson ⟨p.1, p.2⟩) (v.width, v.height) := by
  have hwidth := recovers_real hv.1
  have hheight := recovers_real hv.2
  refine recovers_record (b := (some v.width, some v.height)) rfl (by simp)
    (by simp [hwidth.proper, hheight.proper]) (fun origin => ?_) fun _ => rfl
  rw [Document.ofMembers, Document.ofMembers, Document.ofMembers,
    fillMembers_member rfl (by decide) hwidth.fill, fillMembers_member rfl (by decide) hheight.fill]
  rfl

theorem recovers_decoder :
    Reads (fun v => v.Finite → Recovers decoder toJson v) decoder := by
  intro origin doc v h hv
  have hsize := recovers_sizeDecoder hv
  refine ⟨fun origin => ?_, hsize.proper⟩
  have hobject : toJson v = .object [("width", .real v.width), ("height", .real v.height)] := by
    rw [toJson, Json.ofReal_of_isFinite hv.1, Json.ofReal_of_isFinite hv.2]
  obtain ⟨w, hw⟩ : ∃ w, (Document.ofJson (toJson v)).toJson = .ok w := by
    rw [hobject]
    exact ⟨_, rfl⟩
  have hread : sizeDecoder .value (Document.ofJson (toJson v)) = .ok (v.width, v.height) :=
    hsize.read .value
  rw [toJson, Document.ofJson] at hw hread ⊢
  rw [decoder_of_toJson hw, hread]
  show (ofSize v.width v.height).mapError _ = _
  rw [ofSize_of_decoder h]
  rfl

end ViewBox

namespace Shape

/-- the other fields of a shape are read back, and are no id and no kind -/
def Recovered (fields : Dict Json) : Prop :=
  ∀ e ∈ fields.entries, Recovers json (fun v => v) e.2 ∧ e.1 ≠ "id" ∧ e.1 ≠ "type"

theorem recovered_gather {origin : Origin} {parts parts' : Parts}
    {members : List (String × Document)} (hmembers : ∀ m ∈ members, m.2.Proper)
    (hparts : Recovered parts.fields) (h : gather origin parts members = .ok parts') :
    Recovered parts'.fields := by
  induction members generalizing parts with
  | nil =>
    cases h
    exact hparts
  | cons m members ih =>
    obtain ⟨key, doc⟩ := m
    obtain ⟨hm, hmembers⟩ := List.forall_mem_cons.mp hmembers
    unfold gather at h
    split at h
    · obtain ⟨id, -, h⟩ := ok_of_bind h
      exact ih hmembers (by exact hparts) h
    · split at h
      · obtain ⟨kind, -, h⟩ := ok_of_bind h
        exact ih hmembers (by exact hparts) h
      · rename_i hid hkind
        obtain ⟨v, hv, h⟩ := ok_of_bind h
        refine ih hmembers ?_ h
        intro e he
        rcases Dict.mem_put he with rfl | he
        · exact ⟨recovers_json origin doc v hm hv, hid, hkind⟩
        · exact hparts e he

theorem gather_ofMembers {origin : Origin} {parts : Parts} {l : List (String × Json)}
    (h : ∀ e ∈ l, Recovers json (fun v => v) e.2 ∧ e.1 ≠ "id" ∧ e.1 ≠ "type") :
    gather origin parts (Document.ofMembers l)
      = .ok { parts with fields := l.foldl (fun d e => d.insert e.1 e.2) parts.fields } := by
  induction l generalizing parts with
  | nil => rfl
  | cons e l ih =>
    obtain ⟨⟨hread, hid, hkind⟩, hl⟩ := List.forall_mem_cons.mp h
    rw [Document.ofMembers, gather, if_neg hid, if_neg hkind,
      show json origin (Document.ofJson e.2) = .ok e.2 from hread.read origin]
    exact ih hl

theorem recovers_decoder : ReadsFrom Proper (Recovers decoder toJson) decoder := by
  intro origin doc item hdoc h
  unfold decoder at h
  split at h
  · rename_i members stop
    obtain ⟨parts, hparts, h⟩ := ok_of_bind h
    obtain ⟨_, -, h⟩ := ok_of_bind h
    split at h
    · rename_i kind hkind
      cases h
      have hfields := recovered_gather (Document.proper_object.mp hdoc).2
        (fun e he => absurd he List.not_mem_nil) hparts
      have hfill : ∀ origin, gather origin {} (Document.ofMembers
          (("id", .text (parts.id.getD "")) :: ("type", .text kind) :: parts.fields.entries))
            = .ok ⟨some (parts.id.getD ""), some kind, parts.fields⟩ := by
        intro origin
        have hrest : gather origin ⟨some (parts.id.getD ""), some kind, .empty⟩
            (Document.ofMembers parts.fields.entries) = _ := gather_ofMembers hfields
        rw [show parts.fields.entries.foldl _ Dict.empty = parts.fields from
          Dict.ofList_entries parts.fields] at hrest
        exact hrest
      refine ⟨fun origin => congrArg (· >>= _) (hfill origin), ?_⟩
      rw [toJson, Document.proper_ofJson_object]
      constructor
      · have hid : "id" ∉ parts.fields.entries.map Prod.fst := by
          rw [List.mem_map]
          exact fun ⟨e, he, heq⟩ => (hfields e he).2.1 heq
        have hkind : "type" ∉ parts.fields.entries.map Prod.fst := by
          rw [List.mem_map]
          exact fun ⟨e, he, heq⟩ => (hfields e he).2.2 heq
        simp only [List.map_cons, List.nodup_cons, List.mem_cons, not_or]
        exact ⟨⟨by decide, hid⟩, hkind, Dict.nodup_keys _⟩
      · exact List.forall_mem_cons.mpr ⟨trivial, List.forall_mem_cons.mpr
          ⟨trivial, fun e he => (hfields e he).1.proper⟩⟩
    · cases h
  · cases h

end Shape

namespace Layer

/-- the parts of a layer that are read back -/
structure Recovered (p : Parts) : Prop where
  z : p.z.isFinite = true
  items : ∀ item ∈ p.items, Recovers Shape.decoder Shape.toJson item

theorem recovers_parts {id : String} {p : Parts} (hp : Recovered p) :
    Recovers decoder toJson ⟨id, p.z, p.items⟩ := by
  have hid := recovers_text id
  have hz := recovers_real hp.z
  have hitems := Recovers.list hp.items
  refine recovers_record (b := ⟨some id, p.z, p.items⟩) rfl (by simp)
    (by simp [hid.proper, hz.proper, hitems.proper]) (fun origin => ?_) fun _ => rfl
  rw [Document.ofMembers, Document.ofMembers, Document.ofMembers, Document.ofMembers,
    fillMembers_member rfl (by decide) hid.fill, fillMembers_member rfl (by decide) hz.fill,
    fillMembers_member rfl (by decide) hitems.fill]
  rfl

theorem recovers_decoder : ReadsFrom Proper (Recovers decoder toJson) decoder := by
  refine readsFrom_record (I := Recovered) Document.hereditary_proper
    ⟨by decide, fun _ h => absurd h List.not_mem_nil⟩ ?_ fun missing p layer hp h => ?_
  · simp only [List.forall_mem_cons, List.not_mem_nil, false_imp_iff, implies_true, and_true]
    refine ⟨?id, ?z, ?items⟩
    case id => exact Slot.keepsFrom_of (reads_true _).from fun _ _ _ hp => ⟨hp.1, hp.2⟩
    case z => exact Slot.keepsFrom_of readsFrom_real fun _ _ hz hp => ⟨hz, hp.2⟩
    case items =>
      exact Slot.keepsFrom_of (Shape.recovers_decoder.list Document.hereditary_proper)
        fun _ _ hitems hp => ⟨hp.1, hitems⟩
  · obtain ⟨id, -, h⟩ := ok_of_bind h
    cases h
    exact recovers_parts hp

end Layer

namespace Blueprint

/-- the parts of a blueprint that are read back, if the size is finite -/
structure Recovered (p : Parts) : Prop where
  version : p.version < 0x100000000
  viewBox : ∀ v, p.viewBox = some v → v.Finite → Recovers ViewBox.decoder ViewBox.toJson v
  layers : ∀ layer ∈ p.layers, Recovers Layer.decoder Layer.toJson layer

theorem readsFrom_word : ReadsFrom Proper (fun n => n < 0x100000000) word := by
  intro origin doc n _ h
  unfold word natural at h
  split at h
  · split at h
    · rename_i k hk
      cases h
      omega
    · cases h
  · cases h

theorem recovers_word {n : Nat} (h : n < 0x100000000) : Recovers word (fun n => .integer n) n := by
  refine ⟨fun origin => ?_, ?_, ?_⟩
  · have hbound : 0 ≤ (n : Int) ∧ (n : Int) < ((0x100000000 : Nat) : Int) := by omega
    rw [Document.ofJson, word, natural, if_pos hbound, Int.toNat_natCast]
  · simp only [signBit]
    omega
  · simp only [word64]
    omega

theorem recovers_parts {p : Parts} (hp : Recovered p) {v : ViewBox} (hbox : p.viewBox = some v)
    (hv : v.Finite) : Recovers decoder toJson ⟨p.version, v, p.layers⟩ := by
  have hversion := recovers_word hp.version
  have hviewBox := hp.viewBox v hbox hv
  have hlayers := Recovers.list hp.layers
  refine recovers_record (b := ⟨p.version, some v, p.layers⟩) rfl (by simp)
    (by simp [hversion.proper, hviewBox.proper, hlayers.proper]) (fun origin => ?_) fun _ => rfl
  rw [Document.ofMembers, Document.ofMembers, Document.ofMembers, Document.ofMembers,
    fillMembers_member rfl (by decide) hversion.fill,
    fillMembers_member rfl (by decide) hviewBox.fill,
    fillMembers_member rfl (by decide) hlayers.fill]
  rfl

theorem recovers_decoder : ReadsFrom Proper
    (fun b => b.viewBox.Finite → Recovers decoder toJson b) decoder := by
  refine readsFrom_record (I := Recovered) Document.hereditary_proper
    ⟨by decide, nofun, fun _ h => absurd h List.not_mem_nil⟩ ?_ fun missing p b hp h hfinite => ?_
  · simp only [List.forall_mem_cons, List.not_mem_nil, false_imp_iff, implies_true, and_true]
    refine ⟨?version, ?viewBox, ?layers⟩
    case version => exact Slot.keepsFrom_of readsFrom_word fun _ _ hn hp => ⟨hn, hp.2, hp.3⟩
    case viewBox =>
      exact Slot.keepsFrom_of ViewBox.recovers_decoder.from fun _ _ hv hp =>
        ⟨hp.1, fun _ h => Option.some.inj h ▸ hv, hp.3⟩
    case layers =>
      exact Slot.keepsFrom_of (Layer.recovers_decoder.list Document.hereditary_proper)
        fun _ _ hlayers hp => ⟨hp.1, hp.2, hlayers⟩
  · obtain ⟨v, hv, h⟩ := ok_of_bind h
    cases h
    cases hbox : p.viewBox with
    | none =>
      rw [hbox] at hv
      cases hv
    | some w =>
      rw [hbox] at hv
      cases hv
      exact recovers_parts hp hbox hfinite

end Blueprint

end Figures
