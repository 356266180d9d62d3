import Figures.Proofs.Blueprint.Drawing
import Figures.Proofs.Except
import Figures.Proofs.Markup.Root

/-!
# The view box of a picture

* `ViewBox.numbers? s`     the numbers of a view box that is given as text
* `ViewBox.exists_numbers` an accepted text has four of them, and the last two are kept
* `ViewBox.Shown`          a view box in markup is that of some numbers, rounded, and has a size
* `ViewBox.shown_iff`      when the root element of a picture shows the view box of the text

The first two numbers are read and dropped, and the size is compared with zero before it is rounded.
-/

namespace Figures.ViewBox

open Markup

/-- the numbers of a view box that is given as text -/
def numbers? (s : String) : Option (List Float) := (parts s).mapM readNumber?

variable {origin : Origin} {s : String} {v : ViewBox}

theorem eq_of_ofSize {w h : Float} (hsize : ofSize w h = .ok v) : v = ⟨w, h⟩ := by
  rw [ofSize] at hsize
  split at hsize
  · cases hsize
    rfl
  · cases hsize

/-- an accepted text has four numbers, and the last two are kept -/
theorem exists_numbers (h : decoder origin (.text s) = .ok v) :
    ∃ x y, numbers? s = some [x, y, v.width, v.height] := by
  obtain ⟨-, -, h⟩ := ok_of_bind h
  have htext : ofText s = .ok v := ok_of_mapError h
  unfold ofText at htext
  dsimp only at htext
  split at htext
  · rename_i x y w h hnumbers
    obtain rfl := eq_of_ofSize htext
    exact ⟨x, y, hnumbers⟩
  · cases htext

/-- `shown` is the view box of these numbers, rounded, and has a size -/
structure Shown (places : ℕ) (numbers : List Float) (shown : List ℚ) : Prop where
  finite : ∀ x ∈ numbers, x.isFinite = true
  rounded : shown = numbers.map (rounded places)
  size : ∀ w ∈ shown.drop 2, 0 < w

theorem shown_zero_iff {places : ℕ} {x y w h : Float} :
    Shown places [x, y, w, h] [0, 0, Figures.rounded places w, Figures.rounded places h] ↔
      (∀ v ∈ [x, y], v.isFinite = true ∧ 2 * |valueOf v| * 10 ^ places ≤ 1) ∧
        ∀ v ∈ [w, h], v.isFinite = true ∧ 1 < 2 * valueOf v * 10 ^ places := by
  have hforall : ∀ (P : Float → Prop) (a b : Float), (∀ v ∈ [a, b], P v) ↔ P a ∧ P b := by simp
  rw [hforall, hforall, ← rounded_eq_zero_iff, ← rounded_eq_zero_iff, ← rounded_pos_iff,
    ← rounded_pos_iff]
  constructor
  · rintro ⟨hfinite, hrounded, hsize⟩
    simp only [List.map_cons, List.map_nil, List.cons.injEq, and_true] at hrounded
    refine ⟨⟨⟨hfinite x (by simp), hrounded.1.symm⟩, hfinite y (by simp), hrounded.2.symm⟩,
      ⟨hfinite w (by simp), hsize _ (by simp)⟩, hfinite h (by simp), hsize _ (by simp)⟩
  · rintro ⟨⟨⟨hx, hx0⟩, hy, hy0⟩, ⟨hw, hwpos⟩, hh, hhpos⟩
    refine ⟨by simp [hx, hy, hw, hh], by simp [hx0, hy0], by simp [hwpos, hhpos]⟩

/-- The view box of a picture consists of two zeros and the rounded size that was kept of the text.
It shows the four numbers of the text, and has a size, if and only if the first two numbers are
rounded to zero, and the last two to more than zero; only finite numbers can be shown. -/
theorem shown_iff (b : Blueprint) (scope : Scope) (ctx : Context)
    (h : decoder origin (.text s) = .ok b.viewBox) :
    ∃ x y, numbers? s = some [x, y, b.viewBox.width, b.viewBox.height] ∧
      viewBox? (b.image scope ctx).svg = some [0, 0, rounded ctx.layout.places b.viewBox.width,
        rounded ctx.layout.places b.viewBox.height] ∧
      ((∃ shown, viewBox? (b.image scope ctx).svg = some shown ∧
          Shown ctx.layout.places [x, y, b.viewBox.width, b.viewBox.height] shown) ↔
        (∀ v ∈ [x, y], v.isFinite = true ∧ 2 * |valueOf v| * 10 ^ ctx.layout.places ≤ 1) ∧
          ∀ v ∈ [b.viewBox.width, b.viewBox.height],
            v.isFinite = true ∧ 1 < 2 * valueOf v * 10 ^ ctx.layout.places) := by
  obtain ⟨x, y, hnumbers⟩ := exists_numbers h
  have hread : viewBox? (b.image scope ctx).svg = some [0, 0,
      rounded ctx.layout.places b.viewBox.width, rounded ctx.layout.places b.viewBox.height] := by
    rw [Blueprint.image_eq]
    exact viewBox?_document _ _ _ _ _
  refine ⟨x, y, hnumbers, hread, ?_⟩
  rw [← shown_zero_iff, hread]
  constructor
  · rintro ⟨shown, heq, hshown⟩
    exact Option.some.inj heq ▸ hshown
  · exact fun hshown => ⟨_, rfl, hshown⟩

def bare (width height : Float) : Blueprint := ⟨1, ⟨width, height⟩, []⟩

/-- a size that is not rounded to zero is shown if it stands behind two zeros -/
theorem shown_iff_origin : decoder .value (.text "0 0 400 300") = .ok (bare 400.0 300.0).viewBox ∧
    ∃ shown, viewBox? ((bare 400.0 300.0).image ⟨.null⟩ {}).svg = some shown ∧
      Shown 2 [0.0, 0.0, 400.0, 300.0] shown := by
  have haccepted : decoder .value (.text "0 0 400 300") = .ok (bare 400.0 300.0).viewBox := by rfl
  obtain ⟨x, y, hnumbers, -, hiff⟩ := shown_iff (bare 400.0 300.0) ⟨.null⟩ {} haccepted
  have hsame : numbers? "0 0 400 300" = some [0.0, 0.0, 400.0, 300.0] := by rfl
  obtain ⟨rfl, rfl⟩ : 0.0 = x ∧ 0.0 = y := by
    simpa [hsame, bare] using hnumbers
  exact ⟨haccepted, hiff.mpr ⟨by decide +kernel, by decide +kernel⟩⟩

/-- an infinite width is accepted, and the picture has none -/
theorem not_shown_infinite : ¬ ∀ (origin : Origin) (s : String) (b : Blueprint) (scope : Scope)
    (ctx : Context), decoder origin (.text s) = .ok b.viewBox →
      ∃ numbers shown, numbers? s = some numbers ∧
        viewBox? (b.image scope ctx).svg = some shown ∧ Shown ctx.layout.places numbers shown := by
  intro hall
  have haccepted : decoder .value (.text "0 0 inf 100") = .ok (bare (1.0 / 0.0) 100.0).viewBox := by
    rfl
  obtain ⟨numbers, shown, hnumbers, -, hshown⟩ := hall .value _ _ ⟨.null⟩ {} haccepted
  have hsame : numbers? "0 0 inf 100" = some [0.0, 0.0, 1.0 / 0.0, 100.0] := by rfl
  obtain rfl := Option.some.inj (hsame.symm.trans hnumbers)
  exact absurd (hshown.finite (1.0 / 0.0) (by simp)) (by decide)

end Figures.ViewBox
