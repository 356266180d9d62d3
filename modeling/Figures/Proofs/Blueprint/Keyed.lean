import Figures.Blueprint.Basic
import Figures.Proofs.Dict
import Figures.Proofs.Json.Decoder

/-!
# Blueprints without repeated keys

* `Blueprint.Keyed`          the objects among the fields of the shapes have no key twice
* `Blueprint.keyed_decoder`  a blueprint that is read is such a blueprint
-/

namespace Figures

open Decoder

namespace Shape

/-- the objects among the fields of a shape have no key twice -/
def Keyed (item : Shape) : Prop := ∀ key v, item.fields.get? key = some v → v.Keyed

theorem keyed_gather {origin : Origin} (parts : Parts) {parts' : Parts}
    {members : List (String × Document)} (hparts : ∀ e ∈ parts.fields.entries, e.2.Keyed)
      (h : gather origin parts members = .ok parts') :
    ∀ e ∈ parts'.fields.entries, e.2.Keyed := by
  induction members generalizing parts with
  | nil =>
    cases h
    exact hparts
  | cons m members ih =>
    obtain ⟨key, doc⟩ := m
    unfold gather at h
    split at h
    · obtain ⟨id, -, h⟩ := ok_of_bind h
      exact ih { parts with id } hparts h
    · split at h
      · obtain ⟨kind, -, h⟩ := ok_of_bind h
        exact ih { parts with kind } hparts h
      · obtain ⟨v, hv, h⟩ := ok_of_bind h
        refine ih { parts with fields := parts.fields.insert key v } (fun e he => ?_) h
        rcases Dict.mem_put he with rfl | he
        · exact reads_json origin doc v hv
        · exact hparts e he

theorem keyed_decoder : Reads Keyed decoder := by
  intro origin doc item h key v hget
  unfold decoder at h
  split at h
  · obtain ⟨parts, hparts, h⟩ := ok_of_bind h
    obtain ⟨_, -, h⟩ := ok_of_bind h
    split at h
    · cases h
      exact keyed_gather {} (fun e he => absurd he List.not_mem_nil)
        hparts _ (Dict.mem_of_get? hget)
    · cases h
  · cases h

end Shape

/-- the objects among the fields of the shapes of a layer have no key twice -/
def Layer.Keyed (layer : Layer) : Prop := ∀ item ∈ layer.items, item.Keyed

theorem Layer.keyed_decoder : Reads Keyed decoder := by
  refine reads_record (I := fun p : Parts => ∀ item ∈ p.items, item.Keyed)
    (fun item hitem => absurd hitem List.not_mem_nil) (fun slot hslot => ?_)
      fun missing p v hp h => ?_
  · simp only [List.mem_cons, List.not_mem_nil, or_false] at hslot
    rcases hslot with rfl | rfl | rfl
    · exact Slot.keeps_of (reads_true _) fun _ _ _ hp => hp
    · exact Slot.keeps_of (reads_true _) fun _ _ _ hp => hp
    · exact Slot.keeps_of (Reads.list Shape.keyed_decoder) fun items p hitems _ => hitems
  · obtain ⟨id, -, h⟩ := ok_of_bind h
    cases h
    exact hp

/-- the objects among the fields of the shapes have no key twice -/
def Blueprint.Keyed (b : Blueprint) : Prop := ∀ layer ∈ b.layers, layer.Keyed

/-- a blueprint that is read has no object with a repeated key among the fields of its shapes -/
theorem Blueprint.keyed_decoder : Reads Keyed decoder := by
  refine reads_record (I := fun p : Parts => ∀ layer ∈ p.layers, layer.Keyed)
    (fun layer hlayer => absurd hlayer List.not_mem_nil) (fun slot hslot => ?_)
    fun missing p v hp h => ?_
  · simp only [List.mem_cons, List.not_mem_nil, or_false] at hslot
    rcases hslot with rfl | rfl | rfl
    · exact Slot.keeps_of (reads_true _) fun _ _ _ hp => hp
    · exact Slot.keeps_of (reads_true _) fun _ _ _ hp => hp
    · exact Slot.keeps_of (Reads.list Layer.keyed_decoder) fun layers p hlayers _ => hlayers
  · obtain ⟨viewBox, -, h⟩ := ok_of_bind h
    cases h
    exact hp

end Figures
