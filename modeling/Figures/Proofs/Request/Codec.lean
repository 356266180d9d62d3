import Figures.Proofs.Blueprint.Codec
import Figures.Proofs.Formula.Quoting
import Figures.Proofs.Json.Reading
import Figures.Proofs.Param.Codec
import Figures.Request.Basic

/-!
# Requests are read back

* `Decoder.fillMembers_given`     a member that may be absent fills its slot, or leaves it as it is
* `Request.recovered_decoder`     the parts of a request that was read are read back
* `Request.recovers_parts`        and so is the request
* `Request.decoder_toJson`        a request that was read is read again from the value and from the
                                  text that are written for it

What is written differs from what was read: records are objects, sizes are written in full, and what
has a default is there. The text asks for two things that the value does not: it must not nest too
deep, and its doubles must be read from their texts, which does not hold for all doubles.
-/

namespace Figures

open Decoder
open Document (Proper)

namespace Decoder

variable {α β : Type} {d : Decoder α} {f : α → Json}

theorem ofJson_ne_null {v : Json} (h : v ≠ .null) : Document.ofJson v ≠ .null := by
  cases v with
  | null => exact absurd rfl h
  | boolean | integer | real | text | list | object => exact nofun

/-- A member that is written if it is there fills its slot, or leaves it as it is. `bound` holds the
keys that may have been seen before. -/
theorem fillMembers_given {slots : List (Slot β)} {origin : Origin} {seen bound : List String}
    {key : String} {b : β} {set : Option α → β → β} {v : Option α}
    {rest : List (String × Document)} {result : Except DecodeError β}
    (hslot : slots.find? (fun s => s.key == key) = some (Slot.of key (optional d) set))
    (hseen : seen ⊆ bound) (hkey : key ∉ bound) (hv : ∀ x, v = some x → Recovers d f x)
    (hnull : ∀ x, f x ≠ .null) (hnone : set none b = b)
    (hrest : ∀ seen ⊆ key :: bound, fillMembers slots origin seen rest (set v b) = result) :
    fillMembers slots origin seen (Document.ofMembers (Json.given key f v) ++ rest) b = result := by
  cases v with
  | none =>
    rw [← hrest seen (List.subset_cons_of_subset _ hseen), hnone]
    rfl
  | some x =>
    have hread : optional d origin (Document.ofJson (f x)) = .ok (some x) := by
      rw [optional.eq_2 _ _ _ (ofJson_ne_null (hnull x)), (hv x rfl).read]
      rfl
    rw [← hrest (key :: seen) (List.cons_subset_cons _ hseen)]
    exact fillMembers_member hslot (fun h => hkey (hseen h)) (congrArg (Except.map _) hread)

end Decoder

namespace Request

theorem recovers_mode (m : Mode) : Recovers (variant Mode.table) (fun m => .text m.name) m :=
  ⟨fun _ => by cases m <;> rfl, trivial⟩

/-- the parameters and the blueprint of a request are read back, if the latter's size is finite -/
structure Recovered (r : Request) : Prop where
  params : Recovers Params.decoder Params.toJson r.params
  custom : ∀ b, r.custom = some b → b.viewBox.Finite →
    Recovers Blueprint.decoder Blueprint.toJson b

theorem recovered_decoder : ReadsFrom Proper Recovered decoder := by
  have hparams : Recovers Params.decoder Params.toJson {} :=
    Params.recovers_decoder .value (.object [] none) {} (by simp) rfl
  unfold decoder
  refine readsFrom_record (I := Recovered) Document.hereditary_proper ⟨hparams, nofun⟩ ?_
    fun _ r s hr h => Except.ok.inj h ▸ hr
  have hother {α : Type} {key : String} {d : Decoder α} {set : α → Request → Request}
      (hset : ∀ v r, (set v r).params = r.params ∧ (set v r).custom = r.custom) :
      (Slot.of key d set).KeepsFrom Proper Recovered :=
    Slot.keepsFrom_of (reads_true d).from fun v r _ hr =>
      ⟨(hset v r).1 ▸ hr.params, (hset v r).2 ▸ hr.custom⟩
  simp only [List.forall_mem_cons, List.not_mem_nil, false_imp_iff, implies_true, and_true]
  refine ⟨hother fun _ _ => ⟨rfl, rfl⟩, hother fun _ _ => ⟨rfl, rfl⟩,
    hother fun _ _ => ⟨rfl, rfl⟩, ?params, ?custom, hother fun _ _ => ⟨rfl, rfl⟩,
    hother fun _ _ => ⟨rfl, rfl⟩, hother fun _ _ => ⟨rfl, rfl⟩⟩
  case params =>
    exact Slot.keepsFrom_of Params.recovers_decoder fun _ _ hv hr => ⟨hv, hr.custom⟩
  case custom =>
    exact Slot.keepsFrom_of Blueprint.recovers_decoder.optional fun _ _ hv hr => ⟨hr.params, hv⟩

theorem keys_given {α : Type} (key : String) (f : α → Json) (v : Option α) :
    ((Json.given key f v).map Prod.fst).Sublist [key] := by
  cases v with
  | none => exact List.nil_sublist _
  | some x => exact List.Sublist.refl _

theorem proper_given {α : Type} {d : Decoder α} {key : String} {f : α → Json} {v : Option α}
    (hv : ∀ x, v = some x → Recovers d f x) :
    ∀ e ∈ Json.given key f v, (Document.ofJson e.2).Proper := by
  cases v with
  | none => exact fun e he => absurd he List.not_mem_nil
  | some x => exact List.forall_mem_singleton.mpr (hv x rfl).proper

theorem recovers_parts {r : Request} (hr : r.Recovered)
    (hfinite : ∀ b, r.custom = some b → b.viewBox.Finite) : Recovers decoder toJson r := by
  have hmode := recovers_mode r.mode
  have hparams := hr.params
  have hcustom : ∀ b, r.custom = some b → Recovers Blueprint.decoder Blueprint.toJson b :=
    fun b hb => hr.custom b hb (hfinite b hb)
  have htext : ∀ (v : Option String) (s : String), v = some s → Recovers Decoder.text .text s :=
    fun _ s _ => recovers_text s
  have hnull (s : String) : Json.text s ≠ .null := fun h => by cases h
  have hnull' (b : Blueprint) : b.toJson ≠ .null := fun h => by cases h
  unfold decoder
  refine recovers_record (b := r) rfl ?keys ?proper (fun origin => ?fill) fun _ => rfl
  case keys =>
    refine List.Sublist.nodup ?_ (by decide : (["mode"] ++ ["templateId"] ++ ["diagramId"] ++
      ["params"] ++ ["custom"] ++ ["placement"] ++ ["caption"] ++ ["alt"]).Nodup)
    simp only [List.map_append]
    exact ((((((((List.Sublist.refl _).append (keys_given _ _ r.templateId)).append
      (keys_given _ _ r.diagramId)).append (List.Sublist.refl _)).append
      (keys_given _ _ r.custom)).append (keys_given _ _ r.placement)).append
      (keys_given _ _ r.caption)).append (keys_given _ _ r.alt))
  case proper =>
    simp only [List.forall_mem_append, List.forall_mem_singleton]
    exact ⟨⟨⟨⟨⟨⟨⟨hmode.proper, proper_given (htext r.templateId)⟩,
      proper_given (htext r.diagramId)⟩, hparams.proper⟩, proper_given hcustom⟩,
      proper_given (htext r.placement)⟩, proper_given (htext r.caption)⟩,
      proper_given (htext r.alt)⟩
  case fill =>
    simp only [Document.ofMembers_append, List.append_assoc, Document.ofMembers, List.cons_append,
      List.nil_append]
    rw [fillMembers_member rfl (by decide) hmode.fill]
    refine fillMembers_given rfl (List.Subset.refl _) (by decide) (htext r.templateId) hnull rfl
      fun seen hseen => ?_
    refine fillMembers_given rfl hseen (by decide) (htext r.diagramId) hnull rfl
      fun seen hseen => ?_
    rw [fillMembers_member rfl (fun h => absurd (hseen h) (by decide)) hparams.fill]
    refine fillMembers_given rfl (List.cons_subset_cons _ hseen) (by decide) hcustom hnull' rfl
      fun seen hseen => ?_
    refine fillMembers_given rfl hseen (by decide) (htext r.placement) hnull rfl
      fun seen hseen => ?_
    refine fillMembers_given rfl hseen (by decide) (htext r.caption) hnull rfl
      fun seen hseen => ?_
    rw [← List.append_nil (Document.ofMembers (Json.given "alt" Json.text r.alt))]
    exact fillMembers_given rfl hseen (by decide) (htext r.alt) hnull rfl fun seen hseen => rfl

/-- a request that was read is read again from what is written for it -/
theorem decoder_toJson {origin : Origin} {doc : Document} {r : Request} (hdoc : doc.Proper)
    (h : decoder origin doc = .ok r) (hfinite : ∀ b, r.custom = some b → b.viewBox.Finite) :
    Decoder.ofJson decoder r.toJson = .ok r ∧
      (r.toJson.depth ≤ Document.depthLimit → (∀ x ∈ r.toJson.reals, Document.Survives x) →
        Decoder.ofText decoder r.toJson.compact = .ok r) := by
  have hr := recovers_parts (recovered_decoder origin doc r hdoc h) hfinite
  refine ⟨hr.read .value, fun hdepth hreals => ?_⟩
  rw [Decoder.ofText, Document.ofText_compact hr.proper hdepth hreals]
  dsimp only
  rw [hr.read .text]
  rfl

/-- a document with records as lists, whole numbers for doubles, and values that are not what their
places ask for -/
def terse : Document := .object
  [("params", .object
     [("values", .object [("a", .real 2.5), ("b", .text " 2.5")] none),
      ("visibility", .object [("v", .text "no"), ("w", .boolean true)] none),
      ("positions", .object [("p", .list [.integer 0, .real 2.5] none), ("q", .null)] none)] none),
   ("custom", .object
     [("viewBox", .object [("height", .integer 1), ("width", .real 2.5)] none),
      ("layers", .list [.list [.text "front", .integer 0, .list
        [.object [("r", .text (Formula.braced "a")), ("type", .text "circle")] none] none] none]
        none)] none),
   ("mode", .text "custom"), ("alt", .null), ("caption", .text "a \"circle\"")] none

def spelledOut : Request where
  mode := .custom
  params :=
    { values := .ofList [("a", .number 2.5), ("b", .text " 2.5")],
      visibility := .ofList [("v", .malformed (.text "no")), ("w", .known true)],
      positions := .ofList [("p", .known ⟨0.0, 2.5⟩), ("q", .malformed .null)] }
  custom := some ⟨1, ⟨2.5, 1.0⟩,
    [⟨"front", 0.0, [⟨"", "circle", .ofList [("r", .text (Formula.braced "a"))]⟩]⟩]⟩
  caption := some "a \"circle\""

theorem decoder_toJson_terse : terse.Proper ∧ decoder .text terse = .ok spelledOut ∧
    Decoder.ofJson decoder spelledOut.toJson = .ok spelledOut ∧
    Decoder.ofText decoder spelledOut.toJson.compact = .ok spelledOut := by
  have hproper : terse.Proper := by
    simp only [terse, Document.proper_object, Document.proper_list, List.forall_mem_cons,
      List.not_mem_nil, false_imp_iff, implies_true, and_true]
    simp only [Document.Proper]
    decide
  have hread : decoder .text terse = .ok spelledOut := rfl
  have hfinite : ∀ b, spelledOut.custom = some b → b.viewBox.Finite := by
    rintro b hb
    obtain rfl := Option.some.inj hb
    exact ⟨by decide, by decide⟩
  have hreals : ∀ x ∈ spelledOut.toJson.reals, Document.Survives x := by
    have hlist : spelledOut.toJson.reals = [2.5, 0.0, 2.5, 2.5, 1.0, 0.0] := rfl
    have hhalf : Document.Survives 2.5 :=
      Document.survives_of_parts (s := "2.5") (by decide +kernel) rfl (by decide +kernel)
    have hone : Document.Survives 1.0 :=
      Document.survives_of_parts (s := "1.0") (by decide +kernel) rfl (by decide +kernel)
    have hzero : Document.Survives 0.0 :=
      Document.survives_of_parts (s := "0.0") (by decide +kernel) rfl (by decide +kernel)
    simp [hlist, hhalf, hone, hzero]
  obtain ⟨hvalue, htext⟩ := decoder_toJson hproper hread hfinite
  exact ⟨hproper, hread, hvalue, htext (by decide +kernel) hreals⟩

end Request

end Figures
