import Mathlib.Data.List.FinRange
import Figures.Proofs.Blueprint.Canvas
import Figures.Proofs.Number.Rank

/-!
# The order of layers

* `orderKey_le_iff`        the total order of doubles is that of numbers, but for the zeros
* `sublist_of_pairwise`    of two members of a sorted list, the one that must not be second is first
* `Layer.lines`            the group of a layer: its shapes as declared, between the tags of the
                           group
* `Blueprint.svg_eq`       the image of a blueprint is the groups of its layers in the order of
                           drawing
* `Blueprint.layers_drawn`    each layer once, the lower ones first, those of one height as declared

Layers are told apart by their places in the blueprint: two of them may have one id and one content.
-/

namespace Figures

open Markup

/-! ### zeros -/

/-- two zeros, of which the second one has the sign: as numbers they are equal -/
def ZerosFall (x y : Float) : Prop := x = 0.0 ∧ y = -0.0

theorem zerosFall_iff {x y : Float} : ZerosFall x y ↔
    ¬ signBit ≤ x.toBits.toNat ∧ signBit ≤ y.toBits.toNat ∧ rank x = rank y := by
  constructor
  · rintro ⟨rfl, rfl⟩
    exact ⟨by decide, by decide, by decide⟩
  · rintro ⟨hx, hy, hrank⟩
    rw [rank_eq, rank_eq, if_neg hx, if_pos hy] at hrank
    have hpositive : (0.0 : Float).toBits.toNat = 0 := by decide
    have hnegative : (-0.0 : Float).toBits.toNat = signBit := by decide
    exact ⟨eq_of_toBits (by omega), eq_of_toBits (by omega)⟩

/-- the total order of doubles puts the negative zero below the other one, and else is that of
numbers -/
theorem orderKey_le_iff {x y : Float} (hx : x.isNaN = false) (hy : y.isNaN = false) :
    orderKey x ≤ orderKey y ↔ x ≤ y ∧ ¬ ZerosFall x y := by
  rw [le_iff_rank hx hy, zerosFall_iff, rank_eq, rank_eq]
  simp only [orderKey]
  split_ifs <;> omega

/-! ### sorted lists -/

section
variable {α : Type} {r : α → α → Prop} {l : List α} {a b : α}

/-- of two members of a sorted list, the one that must not be second is first -/
theorem sublist_of_pairwise (hsorted : l.Pairwise r) (ha : a ∈ l) (hb : b ∈ l) (hne : a ≠ b)
    (h : ¬ r b a) : [a, b].Sublist l := by
  obtain ⟨front, back, rfl⟩ := List.append_of_mem ha
  rcases List.mem_append.mp hb with hfront | hback
  · exact absurd ((List.pairwise_append.mp hsorted).2.2 b hfront a List.mem_cons_self) h
  · have hlast := (List.mem_cons.mp hback).resolve_left hne.symm
    exact ((List.singleton_sublist.mpr hlast).cons_cons a).trans (List.sublist_append_right front _)

end

/-! ### layers -/

namespace Layer

/-- the group of a layer in a document: its shapes as declared, between the tags of the group -/
def lines (scope : Scope) (pen : Pen) (layer : Layer) : List (Nat × String) :=
  (2, pieceText (Pen.groupStart layer.id)) ::
    (layer.items.zipIdx.flatMap fun e => levels 3 (e.1.render scope pen (layer.nameOf e.2 e.1)).1)
    ++ [(2, pieceText .groupEnd)]

theorem levels_drawing (scope : Scope) (pen : Pen) (layer : Layer) :
    levels 2 (layer.drawing scope pen) = layer.lines scope pen := by
  rw [drawing_eq, levels_group (nested_rendered scope pen layer.named), levels_rendered, named,
    List.flatMap_map]
  rfl

theorem levels_drawings (scope : Scope) (pen : Pen) (layers : List Layer) :
    levels 2 (layers.flatMap fun layer => layer.drawing scope pen)
      = layers.flatMap fun layer => layer.lines scope pen := by
  induction layers with
  | nil => rfl
  | cons layer layers ih =>
    have hclosed := (layer.drawn_drawing (S := fun _ => True) scope pen fun _ => trivial).nested
    rw [List.flatMap_cons, List.flatMap_cons, levels_append hclosed, levels_drawing, ih]

theorem notAbove_trans (a b c : Layer) (hab : notAbove a b = true) (hbc : notAbove b c = true) :
    notAbove a c = true := by
  simp only [notAbove, decide_eq_true_eq] at *
  exact hab.trans hbc

theorem notAbove_total (a b : Layer) : (notAbove a b || notAbove b a) = true := by
  simp only [notAbove, Bool.or_eq_true, decide_eq_true_eq]
  exact le_total _ _

end Layer

namespace Blueprint

theorem svg_eq (b : Blueprint) (scope : Scope) (ctx : Context) :
    (b.image scope ctx).svg = joinLines ctx.layout.pretty
      (openingLines ctx.layout b.viewBox.width b.viewBox.height [ctx.palette.styleBlock] ++
        (1, pieceText (Pen.groupStart "blueprint")) ::
          (b.ordered.flatMap fun layer => layer.lines scope (Pen.of ctx)) ++
        [(1, pieceText .groupEnd), (0, "</svg>")]) := by
  have hclosed := (b.drawn_scene scope (Pen.of ctx)).nested
  have hlines : levels 2 (b.scene scope (Pen.of ctx)).drawing
      = b.ordered.flatMap fun layer => layer.lines scope (Pen.of ctx) :=
    Layer.levels_drawings scope (Pen.of ctx) b.ordered
  rw [image_eq, Scene.image, document, documentLines, levels_group hclosed, hlines]
  simp [scene]

def order (b : Blueprint) : List (Fin b.layers.length) :=
  (List.finRange b.layers.length).mergeSort fun i j => Layer.notAbove b.layers[i] b.layers[j]

theorem map_order (b : Blueprint) : b.order.map (fun i => b.layers[i]) = b.ordered := by
  rw [order, List.map_mergeSort (s := Layer.notAbove) fun _ _ _ _ => rfl]
  exact congrArg (fun layers => List.mergeSort layers Layer.notAbove) (List.map_get_finRange _)

theorem pairwise_order (b : Blueprint) :
    b.order.Pairwise fun i j => orderKey b.layers[i].z ≤ orderKey b.layers[j].z := by
  have hsorted : b.order.Pairwise fun i j => Layer.notAbove b.layers[i] b.layers[j] = true := by
    rw [order]
    exact List.pairwise_mergeSort (fun i j k => Layer.notAbove_trans b.layers[i] b.layers[j]
      b.layers[k])
      (fun i j => Layer.notAbove_total b.layers[i] b.layers[j]) _
  exact hsorted.imp of_decide_eq_true

/-- The image of a blueprint is the group of each layer once, the shapes of a layer as declared. Of
two layers, the one declared first is drawn first if it is not above the other; it is drawn behind
it if it is above, or if its height is zero and that of the other is the negative zero. -/
theorem layers_drawn (b : Blueprint) (scope : Scope) (ctx : Context) :
    ∃ order : List (Fin b.layers.length),
      order.Perm (List.finRange b.layers.length) ∧
      (b.image scope ctx).svg = joinLines ctx.layout.pretty
        (openingLines ctx.layout b.viewBox.width b.viewBox.height [ctx.palette.styleBlock] ++
          (1, pieceText (Pen.groupStart "blueprint")) ::
            (order.flatMap fun i => b.layers[i].lines scope (Pen.of ctx)) ++
          [(1, pieceText .groupEnd), (0, "</svg>")]) ∧
      ∀ i j, i < j →
        (b.layers[i].z ≤ b.layers[j].z → ¬ ZerosFall b.layers[i].z b.layers[j].z →
          [i, j].Sublist order) ∧
        (b.layers[j].z < b.layers[i].z ∨ ZerosFall b.layers[i].z b.layers[j].z →
          [j, i].Sublist order) := by
  have hperm : b.order.Perm (List.finRange b.layers.length) := List.mergeSort_perm _ _
  have hmem : ∀ i, i ∈ b.order := fun i => hperm.mem_iff.mpr (List.mem_finRange i)
  have hsorted : b.order.Pairwise fun i j => orderKey b.layers[i].z ≤ orderKey b.layers[j].z :=
    b.pairwise_order
  refine ⟨b.order, hperm, ?_, fun i j hij => ⟨fun hle hzeros => ?_, fun hlt => ?_⟩⟩
  · rw [svg_eq, ← map_order, List.flatMap_map]
  · -- sorting is stable: what is declared first and not above stays in front
    have hdeclared : [i, j].Sublist (List.finRange b.layers.length) :=
      sublist_of_pairwise (List.pairwise_lt_finRange _) (List.mem_finRange i) (List.mem_finRange j)
        hij.ne hij.asymm
    have hnumber := isNaN_of_le hle
    exact List.pair_sublist_mergeSort
      (fun i j k => Layer.notAbove_trans b.layers[i] b.layers[j] b.layers[k])
      (fun i j => Layer.notAbove_total b.layers[i] b.layers[j])
      (decide_eq_true ((orderKey_le_iff hnumber.1 hnumber.2).mpr ⟨hle, hzeros⟩)) hdeclared
  · refine sublist_of_pairwise hsorted (hmem j) (hmem i) hij.ne' fun hkey => ?_
    rcases hlt with hlt | hzeros
    · have hnumber := isNaN_of_lt hlt
      have hle := ((orderKey_le_iff hnumber.2 hnumber.1).mp hkey).1
      exact absurd ((lt_iff_rank hnumber.1 hnumber.2).mp hlt)
        (not_lt.mpr ((le_iff_rank hnumber.2 hnumber.1).mp hle))
    · obtain ⟨hi, hj⟩ := hzeros
      rw [hi, hj] at hkey
      exact absurd hkey (by decide)

/-- a layer below two of one height -/
def stacked : Blueprint := ⟨1, ⟨10.0, 10.0⟩, [⟨"a", 2.0, []⟩, ⟨"b", -1.0, []⟩, ⟨"c", 2.0, []⟩]⟩

theorem layers_drawn_stacked :
    ∃ order : List (Fin 3), order.Perm (List.finRange 3) ∧
      [1, 0].Sublist order ∧ [0, 2].Sublist order ∧ [1, 2].Sublist order := by
  obtain ⟨order, hperm, -, hplaced⟩ := layers_drawn stacked ⟨.null⟩ {}
  have hzeros : ∀ x : Float, ¬ ZerosFall x 2.0 := fun x h => absurd h.2 (by decide)
  exact ⟨order, hperm, (hplaced (0 : Fin 3) (1 : Fin 3) (by decide)).2 (.inl (by decide)),
    (hplaced (0 : Fin 3) (2 : Fin 3) (by decide)).1 (by decide) (hzeros _),
    (hplaced (1 : Fin 3) (2 : Fin 3) (by decide)).1 (by decide) (hzeros _)⟩

/-- two layers whose heights are zeros, the first one that without the sign -/
def tied : Blueprint := ⟨1, ⟨10.0, 10.0⟩, [⟨"a", 0.0, []⟩, ⟨"b", -0.0, []⟩]⟩

/-- the heights are equal as numbers, and the layer declared first is drawn behind the other -/
theorem layers_tied :
    tied.layers.map Layer.z = [0.0, -0.0] ∧ (0.0 : Float) ≤ -0.0 ∧
    (tied.image ⟨.null⟩ {}).svg = joinLines ({} : Context).layout.pretty
      (openingLines ({} : Context).layout 10.0 10.0 [({} : Context).palette.styleBlock] ++
        [(1, pieceText (Pen.groupStart "blueprint")),
          (2, pieceText (Pen.groupStart "b")), (2, pieceText .groupEnd),
          (2, pieceText (Pen.groupStart "a")), (2, pieceText .groupEnd),
          (1, pieceText .groupEnd), (0, "</svg>")]) := by
  refine ⟨rfl, by decide, ?_⟩
  have hordered : tied.ordered = [⟨"b", -0.0, []⟩, ⟨"a", 0.0, []⟩] := by
    have hkey : ¬ orderKey 0.0 ≤ orderKey (-0.0) := by decide
    simp [ordered, tied, List.mergeSort, Layer.notAbove, hkey]
  rw [svg_eq, hordered]
  simp [tied, Layer.lines]

end Blueprint

end Figures
