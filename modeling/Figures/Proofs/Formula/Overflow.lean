import Figures.Proofs.Formula.Quoting
import Figures.Proofs.Formula.Numeric
import Figures.Proofs.Number.Ideal

/-!
# Formulas whose result is too large

* `Lexeme.isFinite_numberOf`   the double of a literal is finite if the number is below the limit
* `Formula.of_foldlM_descend`  what a path finds has what the parts of a value have of it
* `Formula.proper_eval`        values of formulas are proper if those of the scope are
* `Formula.Overflows`          a literal is too large, or the exact result of a call is
* `Formula.Numeric`            the root of a formula says that the value is a number
* `Scope.overflow_exact`       it is one, or there is an error, unless the formula overflows

Only the root counts: what overflows further inside is null there, which no helper takes for a
number.
-/

namespace Figures

/-! ### literals -/

namespace Lexeme

theorem isFinite_numberOf (negative : Bool) (ds fs : List Char) :
    (numberOf negative ds fs).isFinite = true ↔
      (digitsValue 0 (ds ++ fs) / 10 ^ fs.length : ℚ) < doubleLimit := by
  have hsign : (numberOf negative ds fs).isFinite = true ↔
      (nearestDecimal (digitsValue 0 (ds ++ fs)) (ds ++ fs).length (-(fs.length : ℤ))).isFinite =
      true := by
    rw [numberOf]
    split
    · exact isFinite_neg_iff
    · exact Iff.rfl
  rw [hsign]
  exact isFinite_nearestDecimal _ (by simp)

end Lexeme

namespace Formula

open Document (Proper)

theorem exists_literal {s : String} {x : Float} (h : read s = .ok (.number x)) :
    ∃ negative ds fs, x = Lexeme.numberOf negative ds fs := by
  rw [read_eq_run] at h
  obtain ⟨ls, hlex, hrun⟩ := ok_of_bind h
  have hcompletes := (Reader.run_eq_ok_iff _ _ _ _).mp hrun
  obtain ⟨d, htokens, hformula⟩ := (Reader.completes_start_iff _ _).mp hcompletes
  cases d with
  | number y =>
    obtain rfl := Formula.number.inj hformula
    obtain ⟨l, hl, htoken⟩ := List.mem_map.mp (htokens ▸ List.mem_singleton.mpr rfl :
      Token.number y ∈ ls.map (·.token))
    obtain ⟨before, part, behind, -, -, hlongest⟩ := (Lexeme.tiles_of_ok hlex).stands l hl
    have hspells := hlongest.spells
    rw [htoken] at hspells
    cases hspells with
    | number negative ds fs => exact ⟨negative, ds, fs, rfl⟩
  | call => cases hformula
  | path => cases hformula
  | text => cases hformula

/-! ### what a path finds -/

/-- what every member and every item has of a value is had by what a path finds in it -/
theorem of_foldlM_descend {P : Json → Prop}
    (hmember : ∀ members, P (.object members) → ∀ e ∈ members, P e.2)
    (hitem : ∀ items, P (.list items) → ∀ v ∈ items, P v) {segments : List String} {v w : Json}
    (hv : P v) (h : segments.foldlM descend v = some w) : P w := by
  induction segments generalizing v with
  | nil => exact Option.some.inj h ▸ hv
  | cons segment rest ih =>
    rw [List.foldlM_cons] at h
    obtain ⟨next, hnext, hrest⟩ := Option.bind_eq_some_iff.mp h
    refine ih ?_ hrest
    cases v with
    | object members => exact hmember members hv _ (Dict.mem_of_lookup hnext)
    | list items =>
      obtain ⟨i, -, hi⟩ := Option.bind_eq_some_iff.mp hnext
      exact hitem items hv next (List.mem_of_getElem? hi)
    | null | boolean | integer | real | text => cases hnext

/-! ### values are proper -/

theorem proper_ofReal (x : Float) : (Document.ofJson (.ofReal x)).Proper := by
  unfold Json.ofReal
  split
  · rename_i h
    exact h
  · trivial

theorem proper_ofPoint (p : Point) : (Document.ofJson (.ofPoint p)).Proper := by
  refine Document.proper_ofJson_object.mpr ⟨?_, fun e he => ?_⟩
  · exact (by decide : ["x", "y"].Nodup)
  rcases List.mem_cons.mp he with rfl | he
  · exact proper_ofReal p.x
  · obtain rfl := List.mem_singleton.mp he
    exact proper_ofReal p.y

theorem proper_apply [Platform] {h : Helper} {args : List Json} {v : Json}
    (happly : h.apply args = .ok v) :
    (Document.ofJson v).Proper := by
  by_cases hscalar : h = .midpoint
  · subst hscalar
    obtain ⟨a, b, p, q, -, -, -, rfl⟩ := Helper.apply_midpoint happly
    exact proper_ofPoint _
  · obtain ⟨z, -, rfl⟩ := (Helper.apply_eq_ok_iff hscalar).mp happly
    exact proper_ofReal z

theorem proper_foldlM {segments : List String} {v w : Json} (hv : (Document.ofJson v).Proper)
    (h : segments.foldlM descend v = some w) : (Document.ofJson w).Proper := by
  refine of_foldlM_descend (P := fun v => (Document.ofJson v).Proper) (fun members hmembers => ?_)
    (fun items hitems => ?_) hv h
  · exact (Document.proper_ofJson_object.mp hmembers).2
  · rwa [Document.ofJson, Document.ofItems_eq_map, Document.proper_list,
      List.forall_mem_map] at hitems

theorem proper_lookup {scope v : Json} {segments : List String}
    (hscope : (Document.ofJson scope).Proper)
    (h : lookup scope segments = .ok v) : (Document.ofJson v).Proper := by
  unfold lookup at h
  split at h
  · rename_i w hw
    cases h
    exact proper_foldlM hscope hw
  · cases h

section
variable [Platform] {scope : Json} (hscope : (Document.ofJson scope).Proper)
include hscope

theorem proper_eval {f : Formula} {v : Json} (h : eval scope f = .ok v) :
    (Document.ofJson v).Proper := by
  cases f with
  | number x =>
    rw [eval] at h
    cases h
    exact proper_ofReal x
  | text s =>
    rw [eval] at h
    cases h
    trivial
  | path segments =>
    rw [eval] at h
    exact proper_lookup hscope h
  | call name args =>
    rw [eval] at h
    obtain ⟨values, -, h⟩ := ok_of_bind h
    unfold callHelper at h
    split at h
    · exact proper_apply h
    · cases h

theorem proper_evalAll {args : List Formula} {values : List Json}
    (h : evalAll scope args = .ok values) :
    ∀ v ∈ values, (Document.ofJson v).Proper := by
  induction args generalizing values with
  | nil =>
    rw [evalAll] at h
    cases h
    exact fun v hv => absurd hv List.not_mem_nil
  | cons f rest ih =>
    rw [evalAll] at h
    obtain ⟨v, hv, h⟩ := ok_of_bind h
    obtain ⟨vs, hvs, h⟩ := ok_of_bind h
    cases h
    exact List.forall_mem_cons.mpr ⟨proper_eval hscope hv, ih hvs⟩

end

/-! ### roots of formulas -/

theorem ofName?_name (h : Helper) : Helper.ofName? h.name = some h := by
  cases h <;> decide

theorem name_injective {h k : Helper} (heq : h.name = k.name) : h = k :=
  Option.some.inj ((ofName?_name h).symm.trans ((congrArg Helper.ofName? heq).trans
    (ofName?_name k)))

theorem eval_call [Platform] (h : Helper) {scope : Json} {args : List Formula} {values : List Json}
    (hargs : evalAll scope args = .ok values) : eval scope (.call h.name args) =
      h.apply values := by
  rw [eval, hargs]
  show callHelper h.name values = _
  rw [callHelper, ofName?_name]

theorem eval_call_eq_ok_iff [Platform] (h : Helper) {scope : Json} {args : List Formula}
    {v : Json} :
    eval scope (.call h.name args) = .ok v ↔
      ∃ values, evalAll scope args = .ok values ∧ h.apply values = .ok v := by
  constructor
  · intro heval
    have hcopy := heval
    rw [eval] at hcopy
    obtain ⟨values, hargs, -⟩ := ok_of_bind hcopy
    exact ⟨values, hargs, (eval_call h hargs).symm.trans heval⟩
  · rintro ⟨values, hargs, happly⟩
    exact (eval_call h hargs).trans happly

/-- the exact result at the root of a formula is too large for a double: the literal is, or the
result of the call -/
inductive Overflows [Platform] (scope : Json) : Formula → Prop
  | literal (negative : Bool) (ds fs : List Char)
      (h : doubleLimit ≤ (digitsValue 0 (ds ++ fs) / 10 ^ fs.length : ℚ)) :
      Overflows scope (.number (Lexeme.numberOf negative ds fs))
  | call (h : Helper) {args : List Formula} {values : List Json}
      (hargs : evalAll scope args = .ok values) (ho : h.Overflows values) :
      Overflows scope (.call h.name args)

/-- the root is a literal, or the call of a helper whose results are numbers -/
inductive Numeric : Formula → Prop
  | literal (x : Float) : Numeric (.number x)
  | call {h : Helper} (hscalar : h ≠ .midpoint) (args : List Formula) : Numeric (.call h.name args)

variable [Platform] {scope : Json} {f : Formula} {v : Json}

theorem overflows_number_iff {s : String} {x : Float} (hread : read s = .ok (.number x)) :
    Overflows scope (.number x) ↔ x.isFinite = false := by
  obtain ⟨negative, ds, fs, rfl⟩ := exists_literal hread
  have hfinite := Lexeme.isFinite_numberOf negative ds fs
  constructor
  · intro ho
    generalize hx : Lexeme.numberOf negative ds fs = x at ho
    cases ho with
    | literal negative ds fs h =>
      refine Bool.eq_false_iff.mpr fun htrue => ?_
      exact not_lt.mpr h ((Lexeme.isFinite_numberOf negative ds fs).mp htrue)
  · intro hinfinite
    refine .literal negative ds fs (not_lt.mp fun hlt => ?_)
    rw [hfinite.mpr hlt] at hinfinite
    cases hinfinite

theorem overflows_call_iff (h : Helper) {args : List Formula} {values : List Json}
    (hargs : evalAll scope args = .ok values) :
    Overflows scope (.call h.name args) ↔ h.Overflows values := by
  refine ⟨fun ho => ?_, .call h hargs⟩
  generalize hname : h.name = name at ho
  cases ho with
  | call k hargs' ho =>
    obtain rfl := name_injective hname
    rwa [Except.ok.inj (hargs.symm.trans hargs')]

section
variable [Platform.Sound] (hscope : (Document.ofJson scope).Proper)
include hscope

/-- a numeric formula with a value has a number, or null, which it has if and only if it
overflows -/
theorem eval_numeric {s : String} (hread : read s = .ok f) (hnumeric : f.Numeric) :
    (eval scope f = .ok .null ↔ Overflows scope f) ∧
      ∀ v, eval scope f = .ok v → (v.IsNumber ↔ ¬ Overflows scope f) := by
  cases hnumeric with
  | literal x =>
    have hover : Overflows scope (.number x) ↔ x.isFinite = false := overflows_number_iff hread
    rw [eval, Except.ok.injEq, Json.ofReal_eq_null_iff, hover, Bool.not_eq_false]
    refine ⟨Iff.rfl, fun v hv => ?_⟩
    obtain rfl := Except.ok.inj hv
    exact Json.isNumber_ofReal
  | @call h hscalar args =>
    have hsplit : ∀ v, eval scope (.call h.name args) = .ok v ↔
        ∃ values, evalAll scope args = .ok values ∧ h.apply values = .ok v :=
      fun _ => eval_call_eq_ok_iff h
    cases hargs : evalAll scope args with
    | error e =>
      -- without arguments there is neither a value nor a result that could be too large
      have hnone : ∀ v, eval scope (.call h.name args) ≠ .ok v := fun v hv => by
        obtain ⟨values, hvalues, -⟩ := (hsplit v).mp hv
        rw [hargs] at hvalues
        cases hvalues
      refine ⟨iff_of_false (hnone _) fun ho => ?_, fun v hv => absurd hv (hnone v)⟩
      generalize hname : h.name = name at ho
      cases ho with
      | call k hvalues _ =>
        rw [hargs] at hvalues
        cases hvalues
    | ok values =>
      have hscalar := Helper.apply_scalar hscalar (proper_evalAll hscope hargs)
      rw [overflows_call_iff h hargs, eval_call h hargs]
      exact hscalar

omit [Platform.Sound] in
/-- the value of a call of `midpoint` is the point of two doubles, and these are finite unless the
formula overflows; if it does, there is a value all the same -/
theorem eval_midpoint {args : List Formula} :
    (Overflows scope (.call Helper.midpoint.name args) →
      ∃ v, eval scope (.call Helper.midpoint.name args) = .ok v) ∧
    ∀ v, eval scope (.call Helper.midpoint.name args) = .ok v →
      (∃ p, v = .ofPoint p) ∧
      (v.IsPoint ↔ ¬ Overflows scope (.call Helper.midpoint.name args)) := by
  constructor
  · intro ho
    generalize hname : Helper.midpoint.name = name at ho
    cases ho with
    | call k hargs ho =>
      obtain rfl := name_injective hname
      obtain ⟨v, hv⟩ := Helper.apply_midpoint_of_overflows ho
      exact ⟨v, (eval_call _ hargs).trans hv⟩
  · intro v hv
    obtain ⟨values, hargs, happly⟩ := (eval_call_eq_ok_iff _).mp hv
    rw [overflows_call_iff _ hargs]
    refine ⟨?_, Helper.isPoint_midpoint_iff happly (proper_evalAll hscope hargs)⟩
    obtain ⟨a, b, p, q, -, -, -, rfl⟩ := Helper.apply_midpoint happly
    exact ⟨_, rfl⟩

end

end Formula

/-! ### texts of formulas -/

theorem Json.shownText_ne_empty {v : Json} (h : v.IsNumber) : v.shownText ≠ "" := by
  have htidy : ∀ x, tidy 6 x ≠ "" := fun x hx => by
    have hdecimal := decimal?_tidy 6 x
    rw [hx] at hdecimal
    cases hdecimal
  cases v with
  | integer n => exact htidy _
  | real x => exact htidy _
  | _ => cases h

namespace Scope

section

variable [Platform] {scope : Scope} {source : String} {f : Formula}

theorem evaluate_eq_ok_iff (hread : Formula.read (Text.trim source) = .ok f) {v : Json} :
    scope.evaluate source = .ok v ↔ Formula.eval scope.values f = .ok v := by
  rw [evaluate, hread]
  show (Formula.eval scope.values f).mapError _ = _ ↔ _
  cases Formula.eval scope.values f with
  | error e => exact iff_of_false (by rintro ⟨⟩) (by rintro ⟨⟩)
  | ok w =>
    show Except.ok w = Except.ok v ↔ _
    rw [Except.ok.injEq, Except.ok.injEq]

theorem text_braced_eq_ok_iff {t : String} (hne : source ≠ "") :
    scope.text (.text (Formula.braced source)) = .ok t ↔
      ∃ v, scope.evaluate source = .ok v ∧ v.shownText = t := by
  rw [text, resolve_braced hne]
  constructor
  · exact ok_of_map
  · rintro ⟨v, hv, rfl⟩
    rw [hv]
    rfl

/-- **Results that are too large.** In a scope of proper values, a formula whose root is a literal
or a helper of numbers has an error or a number, unless the exact result is too large for a double:
then its value is null, and its text is empty. A midpoint has an error or a point, with numbers as
coordinates unless the two points are too far apart. A distance is too large from `2 ^ 1024` on and
not up to the largest double; between the two, the platform decides. -/
theorem overflow_exact [Platform.Sound] (scope : Scope)
    (hscope : (Document.ofJson scope.values).Proper) (source : String) (f : Formula)
    (hread : Formula.read (Text.trim source) = .ok f) :
    (f.Numeric →
      (∀ v, scope.evaluate source = .ok v → v = .null ∨ v.IsNumber) ∧
      (scope.evaluate source = .ok .null ↔ f.Overflows scope.values) ∧
      (scope.text (.text (Formula.braced source)) = .ok "" ↔ f.Overflows scope.values)) ∧
    (∀ args, f = .call Helper.midpoint.name args →
      (f.Overflows scope.values → ∃ v, scope.evaluate source = .ok v) ∧
      ∀ v, scope.evaluate source = .ok v →
        (∃ p, v = .ofPoint p) ∧ (v.IsPoint ↔ ¬ f.Overflows scope.values)) ∧
    (∀ args v w p q, f = .call Helper.distance.name args →
      Formula.evalAll scope.values args = .ok [v, w] → v.point Helper.distance.name = .ok p →
      w.point Helper.distance.name = .ok q →
      (FarApart p q → f.Overflows scope.values) ∧
      (¬ FarApart p q →
        ((2 ^ (1024 : ℤ)) ^ 2 ≤ valueOf (q.x - p.x) ^ 2 + valueOf (q.y - p.y) ^ 2 →
          f.Overflows scope.values) ∧
        (valueOf (q.x - p.x) ^ 2 + valueOf (q.y - p.y) ^ 2 ≤ largestDouble ^ 2 →
          ¬ f.Overflows scope.values))) := by
  have hvalue : ∀ v, scope.evaluate source = .ok v ↔ Formula.eval scope.values f = .ok v :=
    fun _ => evaluate_eq_ok_iff hread
  simp only [hvalue]
  refine ⟨fun hnumeric => ?_, ?_, ?_⟩
  · obtain ⟨hnull, hnumber⟩ := Formula.eval_numeric hscope hread hnumeric
    refine ⟨fun v hv => ?_, hnull, fun htext => ?_, fun ho => ?_⟩
    · by_cases ho : f.Overflows scope.values
      · exact .inl (Except.ok.inj (hv.symm.trans (hnull.mpr ho)))
      · exact .inr ((hnumber v hv).mpr ho)
    · have hne : source ≠ "" := by
        rintro rfl
        have hbraces : Formula.braced "" ≠ "" := by decide
        exact hbraces (Except.ok.inj htext)
      obtain ⟨v, hv, hempty⟩ := (text_braced_eq_ok_iff hne).mp htext
      by_contra ho
      exact Json.shownText_ne_empty ((hnumber v ((hvalue v).mp hv)).mpr ho) hempty
    · have hevaluate := (hvalue .null).mpr (hnull.mpr ho)
      exact (text_braced_eq_ok_iff (ne_empty_of_evaluate hevaluate)).mpr ⟨.null, hevaluate, rfl⟩
  · rintro args rfl
    exact Formula.eval_midpoint hscope
  · rintro args v w p q rfl hargs hp hq
    rw [Formula.overflows_call_iff _ hargs]
    exact ⟨.leg hp hq, Helper.distance_overflows (Formula.proper_evalAll hscope hargs) hp hq⟩

end

def vast : Scope := ⟨.object [("a", .real 1e200)]⟩

theorem proper_vast : (Document.ofJson vast.values).Proper := by
  refine Document.proper_ofJson_object.mpr ⟨(by decide : ["a"].Nodup), fun e he => ?_⟩
  obtain rfl := List.mem_singleton.mp he
  exact (by decide +kernel : Float.isFinite 1e200 = true)

def square : Formula := .call Helper.mul.name [.path ["a"], .path ["a"]]

theorem read_square : Formula.read (Text.trim "mul(a, a)") = .ok square := by cbv

theorem overflows_square [Platform] : square.Overflows vast.values := by
  have hlarge : valueOf 1e200 = 5883593420661338 * 2 ^ (612 : ℤ) := by
    have hexact : Binary.ofFloat? 1e200 = some ⟨false, 5883593420661338, 612⟩ := by
      decide +kernel
    rw [valueOf, hexact]
    norm_num [Binary.value]
  have hlow : (2 : ℚ) ^ (512 : ℤ) ≤ valueOf 1e200 := by
    rw [hlarge, ← div_le_iff₀ (by positivity), ← zpow_sub₀ two_ne_zero]
    norm_num
  have hlimit : doubleLimit ≤ 2 ^ (512 : ℤ) * 2 ^ (512 : ℤ) := by
    rw [doubleLimit, ← zpow_add₀ two_ne_zero, sub_le_iff_le_add]
    exact le_add_of_nonneg_right (by positivity)
  have hproduct := mul_le_mul hlow hlow (by positivity)
    ((by positivity : (0 : ℚ) ≤ 2 ^ (512 : ℤ)).trans hlow)
  exact .call .mul rfl (.mul (x := 1e200) (y := 1e200) rfl rfl
    ((hlimit.trans hproduct).trans (le_abs_self _)))

theorem overflow_exact_square :
    (@Platform.Sound Platform.ideal ∧ (Document.ofJson vast.values).Proper ∧
      Formula.read (Text.trim "mul(a, a)") = .ok square) ∧
      @evaluate Platform.ideal vast "mul(a, a)" = .ok .null ∧
      @text Platform.ideal vast (.text (Formula.braced "mul(a, a)")) = .ok "" := by
  obtain ⟨-, hnull, htext⟩ :=
    (@overflow_exact Platform.ideal Platform.sound_ideal vast proper_vast "mul(a, a)"
    square read_square).1 (.call (by decide) _)
  have hover := @overflows_square Platform.ideal
  exact ⟨⟨Platform.sound_ideal, proper_vast, read_square⟩, hnull.mpr hover, htext.mpr hover⟩

/-- the value of a product is null, which is no number -/
theorem product_null : Formula.read (Text.trim "mul(a, a)") = .ok square ∧ square.Numeric ∧
    vast.evaluate "mul(a, a)" = .ok .null ∧ ¬ Json.null.IsNumber := by
  refine ⟨read_square, .call (by decide) _, (evaluate_eq_ok_iff read_square).mpr ?_, id⟩
  show Except.ok (Json.ofReal (1e200 * 1e200)) = _
  rw [Json.ofReal_eq_null_iff.mpr (by decide +kernel)]

end Scope

end Figures
