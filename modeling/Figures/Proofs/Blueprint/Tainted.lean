import Figures.Proofs.Blueprint.Issues
import Figures.Proofs.Formula.Overflow

/-!
# Values that are read as formulas once more

* `Refuses`                    a value that cannot be resolved, for a syntax error
* `Json.Malformed`             a text in double braces that is no formula
* `Json.EveryBraced`           all texts in double braces in a value, at any depth
* `Json.Clean`                 they are formulas
* `Scope.refuses_point_iff`    when the resolution of a point fails for a syntax error
* `Scope.FaultyPoint`, `Tainted`    a value with such a text for a coordinate, or a list of such
* `Scope.Quiet`                a formula that has no tainted value
* `Scope.quiet_of_clean`       where every text in double braces is a formula, every formula is
                               quiet

A point is resolved, and then its coordinates are; so are the points of a list. Where the point or
the list is the value of a formula, the texts in it come from the scope.
-/

namespace Figures

/-- the value fails for a syntax error -/
def Refuses {α : Type} (x : Except Unresolved α) : Prop := ∃ u, x = .error u ∧ u.error.Syntactic

section
variable {α β : Type}

theorem not_refuses_ok (a : α) : ¬ Refuses (.ok a : Except Unresolved α) := by
  rintro ⟨u, h, -⟩
  cases h

theorem refuses_bind_iff {x : Except Unresolved α} {f : α → Except Unresolved β} :
    Refuses (x >>= f) ↔ Refuses x ∨ ∃ a, x = .ok a ∧ Refuses (f a) := by
  constructor
  · rintro ⟨u, hu, hsyntactic⟩
    rcases error_of_bind hu with hx | ⟨a, ha, hf⟩
    · exact .inl ⟨u, hx, hsyntactic⟩
    · exact .inr ⟨a, ha, u, hf, hsyntactic⟩
  · rintro (⟨u, rfl, hsyntactic⟩ | ⟨a, rfl, hf⟩)
    · exact ⟨u, rfl, hsyntactic⟩
    · exact hf

theorem not_refuses_mapError {x : Except FormulaError α} (h : Sober x) (expression : String) :
    ¬ Refuses (x.mapError (Unresolved.mk expression)) := by
  rintro ⟨u, hu, hsyntactic⟩
  obtain ⟨e, he, rfl⟩ := error_of_mapError hu
  exact h e he hsyntactic

end

namespace Json

/-- a text in double braces that is no formula -/
def Malformed (v : Json) : Prop :=
  ∃ t source e, v = .text t ∧ Formula.body? t = some source ∧
    Formula.read (Text.trim source) = .error e

/-- every text in double braces in the value, at any depth, satisfies `P` -/
def EveryBraced (P : String → Prop) (v : Json) : Prop :=
  ∀ way t source, v.At way t → Formula.body? t = some source → P source

/-- every text in double braces in the value, at any depth, is a formula -/
def Clean (v : Json) : Prop := v.EveryBraced fun source => ∃ f, Formula.read source = .ok f

namespace EveryBraced

variable {P : String → Prop}

theorem item {items : List Json} (h : (Json.list items).EveryBraced P) {v : Json} (hv : v ∈ items) :
    v.EveryBraced P := by
  obtain ⟨i, hi⟩ := List.mem_iff_getElem?.mp hv
  exact fun _ t source hat => h _ t source (.item hi hat)

theorem member {members : List (String × Json)} (h : (Json.object members).EveryBraced P)
    {key : String} {v : Json} (hv : (key, v) ∈ members) : v.EveryBraced P :=
  fun _ t source hat => h _ t source (.member hv hat)

theorem member? {v c : Json} (h : v.EveryBraced P) {key : String} (hc : v.member? key = some c) :
    c.EveryBraced P := by
  cases v with
  | object members => exact h.member (Dict.mem_of_lookup hc)
  | null | boolean | integer | real | text | list => cases hc

end EveryBraced

theorem Clean.not_malformed {v : Json} (h : v.Clean) : ¬ v.Malformed := by
  rintro ⟨t, source, e, rfl, hbody, hread⟩
  obtain ⟨f, hf⟩ := h "" t source (.here t) hbody
  rw [((Formula.read_ok_iff source f).mp hf).1] at hread
  cases hread

end Json

namespace Scope

variable (scope : Scope)

theorem refuses_evaluate_iff (source : String) :
    Refuses (scope.evaluate source) ↔ ∃ e, Formula.read (Text.trim source) = .error e := by
  rw [← scope.evaluate_fails_iff]
  constructor
  · rintro ⟨u, hu, hsyntactic⟩
    obtain ⟨e, -, rfl⟩ := error_of_mapError hu
    exact ⟨e, hsyntactic, hu⟩
  · rintro ⟨e, hsyntactic, hu⟩
    exact ⟨_, hu, hsyntactic⟩

theorem refuses_resolve_iff (v : Json) : Refuses (scope.resolve v) ↔ v.Malformed := by
  cases v with
  | text t =>
    rw [resolve]
    cases hbody : Formula.body? t with
    | none =>
      refine iff_of_false (not_refuses_ok _) ?_
      rintro ⟨_, source, e, heq, hsome, -⟩
      cases heq
      rw [hbody] at hsome
      cases hsome
    | some source =>
      dsimp only
      rw [refuses_evaluate_iff]
      constructor
      · rintro ⟨e, hread⟩
        exact ⟨t, source, e, rfl, hbody, hread⟩
      · rintro ⟨_, source', e, heq, hsome, hread⟩
        cases heq
        obtain rfl := Option.some.inj (hbody.symm.trans hsome)
        exact ⟨e, hread⟩
  | null | boolean | integer | real | list | object =>
    refine iff_of_false (not_refuses_ok _) ?_
    rintro ⟨t, source, e, heq, -⟩
    cases heq

theorem refuses_number_iff (v : Json) : Refuses (scope.number v) ↔ v.Malformed := by
  rw [number, refuses_bind_iff, refuses_resolve_iff]
  refine or_iff_left ?_
  rintro ⟨resolved, -, h⟩
  exact not_refuses_mapError (Json.sober_number _ _) _ h

/-- a point whose coordinates, in this order, come upon a text in double braces that is no
formula -/
def FaultyPoint (v : Json) : Prop :=
  (∃ c, v.member? "x" = some c ∧ c.Malformed) ∨
    (∃ c x, v.member? "x" = some c ∧ scope.number c = .ok x) ∧
      ∃ c, v.member? "y" = some c ∧ c.Malformed

theorem refuses_coordinate_iff (v resolved : Json) (axis : String) :
    Refuses (scope.coordinate v resolved axis) ↔
      ∃ c, resolved.member? axis = some c ∧ c.Malformed := by
  rw [coordinate]
  cases resolved.member? axis with
  | none =>
    refine iff_of_false ?_ ?_
    · rintro ⟨u, hu, hsyntactic⟩
      cases hu
      cases hsyntactic
    · rintro ⟨c, hc, -⟩
      cases hc
  | some c =>
    dsimp only
    rw [refuses_number_iff]
    exact ⟨fun h => ⟨c, rfl, h⟩, fun ⟨d, hd, h⟩ => Option.some.inj hd ▸ h⟩

theorem coordinate_eq_ok_iff (v resolved : Json) (axis : String) (x : Float) :
    scope.coordinate v resolved axis = .ok x ↔
      ∃ c, resolved.member? axis = some c ∧ scope.number c = .ok x := by
  rw [coordinate]
  cases resolved.member? axis <;> simp

theorem refuses_point_iff (v : Json) :
    Refuses (scope.point v) ↔ v.Malformed ∨ ∃ w, scope.resolve v = .ok w ∧ scope.FaultyPoint w := by
  rw [point, refuses_bind_iff, refuses_resolve_iff]
  refine or_congr_right (exists_congr fun w => and_congr_right fun _ => ?_)
  cases w with
  | object members =>
    dsimp only
    rw [refuses_bind_iff, refuses_coordinate_iff]
    refine or_congr_right ?_
    have hy : ∀ x : Float, Refuses (scope.coordinate v (.object members) "y" >>= fun y =>
        Except.ok (ε := Unresolved) (⟨x, y⟩ : Point)) ↔
          ∃ c, (Json.object members).member? "y" = some c ∧ c.Malformed := by
      intro x
      rw [refuses_bind_iff, refuses_coordinate_iff]
      refine or_iff_left ?_
      rintro ⟨y, -, h⟩
      exact not_refuses_ok _ h
    constructor
    · rintro ⟨x, hok, h⟩
      obtain ⟨c, hc, hnumber⟩ := (scope.coordinate_eq_ok_iff v _ "x" x).mp hok
      exact ⟨⟨c, x, hc, hnumber⟩, (hy x).mp h⟩
    · rintro ⟨⟨c, x, hc, hnumber⟩, h⟩
      exact ⟨x, (scope.coordinate_eq_ok_iff v _ "x" x).mpr ⟨c, hc, hnumber⟩, (hy x).mpr h⟩
  | null | boolean | integer | real | text | list =>
    refine iff_of_false ?_ ?_
    · rintro ⟨u, hu, hsyntactic⟩
      cases hu
      cases hsyntactic
    · rintro (⟨c, hc, -⟩ | ⟨⟨c, x, hc, -⟩, -⟩) <;> cases hc

/-- a value that, taken as a point or as a list of points, comes upon such a text -/
def Tainted : Json → Prop
  | .object members => scope.FaultyPoint (.object members)
  | .list items =>
    ∃ item ∈ items, item.Malformed ∨ ∃ w, scope.resolve item = .ok w ∧ scope.FaultyPoint w
  | _ => False

/-- the formula has no such value -/
def Quiet (source : String) : Prop := ∀ v, scope.evaluate source = .ok v → ¬ scope.Tainted v

theorem not_faultyPoint {v : Json} (h : ¬ scope.Tainted v) : ¬ scope.FaultyPoint v := by
  cases v with
  | object members => exact h
  | null | boolean | integer | real | text | list =>
    rintro (⟨c, hc, -⟩ | ⟨⟨c, x, hc, -⟩, -⟩) <;> cases hc

theorem not_faultyPoint_of_clean {v : Json} (h : v.Clean) : ¬ scope.FaultyPoint v := by
  rintro (⟨c, hc, hmalformed⟩ | ⟨-, c, hc, hmalformed⟩) <;>
    exact Json.Clean.not_malformed (h.member? hc) hmalformed

theorem resolve_cases (v : Json) :
    scope.resolve v = .ok v ∨ ∃ t source, v = .text t ∧ Formula.body? t = some source ∧
      scope.resolve v = scope.evaluate source := by
  cases v with
  | text t =>
    cases hbody : Formula.body? t with
    | none => exact .inl (by rw [resolve, hbody])
    | some source => exact .inr ⟨t, source, rfl, hbody, by rw [resolve, hbody]⟩
  | null | boolean | integer | real | list | object => exact .inl rfl

variable {scope}

/-- a point is found where all texts in double braces are formulas without tainted values -/
theorem not_refuses_point {v : Json} (hclean : v.Clean) (hquiet : v.EveryBraced scope.Quiet) :
    ¬ Refuses (scope.point v) := by
  rw [refuses_point_iff]
  rintro (hmalformed | ⟨w, hw, hpoint⟩)
  · exact hclean.not_malformed hmalformed
  · rcases scope.resolve_cases v with hself | ⟨t, source, rfl, hbody, heval⟩
    · rw [hself] at hw
      cases hw
      exact scope.not_faultyPoint_of_clean hclean hpoint
    · have hsource : scope.Quiet source := hquiet "" t source (.here t) hbody
      exact scope.not_faultyPoint (hsource w (heval.symm.trans hw)) hpoint

theorem not_refuses_item {v : Json} (hclean : v.Clean) (hquiet : v.EveryBraced scope.Quiet)
    {items : List Json} (hv : scope.resolve v = .ok (.list items)) {item : Json}
    (hitem : item ∈ items) : ¬ Refuses (scope.point item) := by
  rcases scope.resolve_cases v with hself | ⟨t, source, rfl, hbody, heval⟩
  · cases hself.symm.trans hv
    exact not_refuses_point (hclean.item hitem) (hquiet.item hitem)
  · have hsource : ¬ scope.Tainted (.list items) :=
      hquiet "" t source (.here t) hbody _ (heval.symm.trans hv)
    exact fun h => hsource ⟨item, hitem, (scope.refuses_point_iff item).mp h⟩

end Scope

/-! ### scopes without malformed formulas -/

/-- a value without malformed formulas, or one text -/
def Json.Harmless (v : Json) : Prop := v.Clean ∨ ∃ s, v = .text s

theorem Json.clean_of_no_texts {v : Json} (h : ∀ way t, ¬ v.At way t) : v.Clean :=
  fun way t _ hat => absurd hat (h way t)

theorem Json.clean_ofReal (x : Float) : (Json.ofReal x).Clean := by
  refine clean_of_no_texts fun way t hat => ?_
  unfold ofReal at hat
  split at hat <;> cases hat

theorem Json.clean_ofPoint (p : Point) : (Json.ofPoint p).Clean := by
  intro way t source hat
  cases hat with
  | @member _ key v way t hmember hat =>
    have hreal : ∃ x, v = Json.ofReal x := by
      simp only [List.mem_cons, Prod.mk.injEq, List.not_mem_nil, or_false] at hmember
      rcases hmember with ⟨-, rfl⟩ | ⟨-, rfl⟩
      · exact ⟨p.x, rfl⟩
      · exact ⟨p.y, rfl⟩
    obtain ⟨x, rfl⟩ := hreal
    exact clean_ofReal x way t source hat

theorem Helper.gives_clean (h : Helper) (args : List Json) : Gives Json.Clean (h.apply args) := by
  have hreal : ∀ x, Gives Json.Clean (.ok (.ofReal x) : Except FormulaError Json) :=
    fun x => .ok (Json.clean_ofReal x)
  unfold apply
  split
  · refine .bind fun x _ => ?_
    cases h <;> exact hreal _
  · unfold apply2
    split
    · exact .bind fun p _ => .bind fun q _ => .ok (Json.clean_ofPoint _)
    · exact .bind fun p _ => .bind fun q _ => hreal _
    · exact .bind fun y _ => .ite (fun _ => .error _) fun _ => .bind fun x _ => hreal _
    · refine .bind fun x _ => .bind fun y _ => ?_
      split <;> exact hreal _
  · refine .bind fun x _ => .bind fun lo _ => .bind fun hi _ => ?_
    exact .ite (fun _ => .error _) fun _ => hreal _
  · exact .error _

theorem Formula.clean_of_foldlM {segments : List String} {scope v : Json} (hscope : scope.Clean)
    (h : segments.foldlM descend scope = some v) : v.Clean :=
  of_foldlM_descend (fun _ hmembers _ he => hmembers.member he)
    (fun _ hitems _ hv => hitems.item hv) hscope h

/-- a formula's value is a part of the scope, the result of a helper, a number or a text -/
theorem Formula.gives_harmless {scope : Json} (hscope : scope.Clean) (f : Formula) :
    Gives Json.Harmless (eval scope f) := by
  cases f with
  | number x => exact .ok (.inl (Json.clean_ofReal x))
  | text s => exact .ok (.inr ⟨s, rfl⟩)
  | path segments =>
    rw [eval, lookup]
    split
    · rename_i v hv
      exact .ok (.inl (clean_of_foldlM hscope hv))
    · exact .error _
  | call name args =>
    rw [eval]
    refine .bind fun values _ => ?_
    unfold callHelper
    split
    · exact fun v hv => .inl (Helper.gives_clean _ values v hv)
    · exact .error _

theorem Scope.not_faultyPoint_of_harmless (scope : Scope) {v : Json} (h : v.Harmless) :
    ¬ scope.FaultyPoint v := by
  rcases h with hclean | ⟨s, rfl⟩
  · exact scope.not_faultyPoint_of_clean hclean
  · rintro (⟨c, hc, -⟩ | ⟨⟨c, x, hc, -⟩, -⟩) <;> cases hc

/-- where every text in double braces is a formula, so is every one in the value of a formula -/
theorem Scope.quiet_of_clean {scope : Scope} (h : scope.values.Clean) (source : String) :
    scope.Quiet source := by
  have hharmless : ∀ source v, scope.evaluate source = .ok v → v.Harmless := by
    intro source v hv
    obtain ⟨f, -, heval⟩ := ok_of_bind (ok_of_mapError hv)
    exact Formula.gives_harmless h f v heval
  intro v hv htainted
  cases v with
  | object members => exact scope.not_faultyPoint_of_harmless (hharmless source _ hv) htainted
  | list items =>
    obtain ⟨item, hitem, hpoint⟩ := htainted
    have hclean : item.Clean := by
      rcases hharmless source _ hv with hlist | ⟨s, hs⟩
      · exact hlist.item hitem
      · cases hs
    rcases hpoint with hmalformed | ⟨w, hw, hfaulty⟩
    · exact hclean.not_malformed hmalformed
    · rcases scope.resolve_cases item with hself | ⟨t, source', -, -, heval⟩
      · cases hself.symm.trans hw
        exact scope.not_faultyPoint_of_clean hclean hfaulty
      · exact scope.not_faultyPoint_of_harmless (hharmless source' w (heval.symm.trans hw)) hfaulty
  | null | boolean | integer | real | text => exact htainted

end Figures
