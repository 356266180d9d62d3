import Figures.Proofs.Formula.Overflow
import Figures.Proofs.Formula.Tiling
import Figures.Proofs.Json.Reading
import Figures.Proofs.Text.Spelled
import Mathlib.Tactic.SplitIfs

/-!
# The words of values

* `Json.strings`               the keys and texts of a value, at any depth
* `Json.Worded given v`        they have allowed characters and given ones only
* `Json.Worded.spelled_compact`, `spelled_shownText`    so has the text of the value
* `Formula.mem_of_read_text`   the characters of a quoted text stand in the formula
* `Scope.worded_evaluate`      a formula has values of the scope, numbers, points, or a text of its
                               own
* `Scope.spelled_text`         the text that a field of a shape resolves to
-/

namespace Figures

namespace Json

mutual

/-- the keys and texts of a value, at any depth -/
def strings : Json → List String
  | .text s => [s]
  | .list items => stringsOfItems items
  | .object members => stringsOfMembers members
  | _ => []

def stringsOfItems : List Json → List String
  | [] => []
  | v :: rest => strings v ++ stringsOfItems rest

def stringsOfMembers : List (String × Json) → List String
  | [] => []
  | (key, v) :: rest => key :: (strings v ++ stringsOfMembers rest)

end

theorem stringsOfItems_eq (items : List Json) : stringsOfItems items = items.flatMap strings := by
  induction items with
  | nil => rfl
  | cons v items ih => rw [stringsOfItems, ih, List.flatMap_cons]

theorem stringsOfMembers_eq (members : List (String × Json)) :
    stringsOfMembers members = members.flatMap fun e => e.1 :: e.2.strings := by
  induction members with
  | nil => rfl
  | cons e members ih => rw [stringsOfMembers, ih, List.flatMap_cons, List.cons_append]

/-- the keys and texts of a value have allowed characters and given ones only -/
def Worded (given : List Char) (v : Json) : Prop := ∀ s ∈ v.strings, Spelled given s

variable {given : List Char}

theorem worded_text_iff {s : String} : (Json.text s).Worded given ↔ Spelled given s :=
  List.forall_mem_singleton

theorem worded_list_iff {items : List Json} :
    (Json.list items).Worded given ↔ ∀ v ∈ items, v.Worded given := by
  simp only [Worded, strings, stringsOfItems_eq, List.mem_flatMap]
  exact ⟨fun h v hv s hs => h s ⟨v, hv, hs⟩, fun h s ⟨v, hv, hs⟩ => h v hv s hs⟩

theorem worded_object_iff {members : List (String × Json)} :
    (Json.object members).Worded given ↔ ∀ e ∈ members, Spelled given e.1 ∧ e.2.Worded given := by
  simp only [Worded, strings, stringsOfMembers_eq, List.mem_flatMap, List.mem_cons]
  constructor
  · exact fun h e he => ⟨h e.1 ⟨e, he, .inl rfl⟩, fun s hs => h s ⟨e, he, .inr hs⟩⟩
  · rintro h s ⟨e, he, rfl | hs⟩
    · exact (h e he).1
    · exact (h e he).2 s hs

theorem worded_ofReal (x : Float) : (Json.ofReal x).Worded given := by
  unfold ofReal
  split <;> exact fun s hs => absurd hs List.not_mem_nil

theorem worded_ofPoint (p : Point) : (Json.ofPoint p).Worded given := by
  refine worded_object_iff.mpr fun e he => ?_
  rcases List.mem_cons.mp he with rfl | he
  · exact ⟨spelled_of_allowed (by decide : Allowed "x"), worded_ofReal p.x⟩
  · obtain rfl := List.mem_singleton.mp he
    exact ⟨spelled_of_allowed (by decide : Allowed "y"), worded_ofReal p.y⟩

/-! ### values as text -/

theorem spelled_hexByte (n : Nat) : Spelled given (hexByte n) := by
  have hdigit : ∀ k < 16, xmlChar (Nat.digitChar k) = true := by decide
  intro c hc
  rw [hexByte, String.toList_ofList] at hc
  rcases List.mem_cons.mp hc with rfl | hc
  · exact .inl (hdigit _ (Nat.mod_lt _ (by decide)))
  · obtain rfl := List.mem_singleton.mp hc
    exact .inl (hdigit _ (Nat.mod_lt _ (by decide)))

/-- a character in quotes is itself, or is replaced by allowed ones -/
theorem spelled_escapeChar (c : Char) : Spelled [c] (escapeChar c) := by
  unfold escapeChar
  split_ifs
  -- behind the seven characters with letters of their own
  on_goal 9 => exact spelled_of_subset fun d hd => by simpa using hd
  on_goal 8 => exact spelled_append.mpr ⟨spelled_of_allowed (by decide), spelled_hexByte _⟩
  all_goals exact spelled_of_allowed (by decide)

theorem spelled_quote {s : String} (h : Spelled given s) : Spelled given (quote s) := by
  intro c hc
  rw [Document.toList_quote] at hc
  rcases List.mem_cons.mp hc with rfl | hc
  · exact .inl (by decide)
  rcases List.mem_append.mp hc with hc | hc
  · obtain ⟨d, hd, hcd⟩ := List.mem_flatMap.mp hc
    rcases spelled_escapeChar d c hcd with hallowed | hsame
    · exact .inl hallowed
    · obtain rfl := List.mem_singleton.mp hsame
      exact h c hd
  · obtain rfl := List.mem_singleton.mp hc
    exact .inl (by decide)

theorem spelled_toString (n : Int) : Spelled given (toString n) := by
  cases n with
  | ofNat n => exact spelled_repr n
  | negSucc n => exact spelled_append.mpr ⟨spelled_of_allowed (by decide), spelled_repr _⟩

theorem spelled_compactItems (first : Bool) {items : List Json}
    (h : ∀ v ∈ items, Spelled given v.compact) : Spelled given (compactItems first items) := by
  induction items generalizing first with
  | nil => exact spelled_empty
  | cons v items ih =>
    obtain ⟨hv, hrest⟩ := List.forall_mem_cons.mp h
    rw [compactItems]
    refine spelled_append.mpr ⟨spelled_append.mpr ⟨?_, hv⟩, ih false hrest⟩
    cases first <;> exact spelled_of_allowed (by decide)

theorem spelled_compactMembers (first : Bool) {members : List (String × Json)}
    (h : ∀ e ∈ members, Spelled given e.1 ∧ Spelled given e.2.compact) :
    Spelled given (compactMembers first members) := by
  induction members generalizing first with
  | nil => exact spelled_empty
  | cons e members ih =>
    obtain ⟨⟨hkey, hv⟩, hrest⟩ := List.forall_mem_cons.mp h
    rw [compactMembers]
    refine spelled_append.mpr ⟨spelled_append.mpr ⟨spelled_append.mpr ⟨spelled_append.mpr
      ⟨?_, spelled_quote hkey⟩, spelled_of_allowed (by decide)⟩, hv⟩, ih false hrest⟩
    cases first <;> exact spelled_of_allowed (by decide)

/-- the text of a value has the characters of its keys and texts, and allowed ones -/
theorem Worded.spelled_compact {v : Json} (h : v.Worded given) : Spelled given v.compact := by
  induction v using Json.induction with
  | list items ih =>
    rw [compact]
    exact spelled_append.mpr ⟨spelled_append.mpr ⟨spelled_of_allowed (by decide),
      spelled_compactItems true fun v hv => ih v hv (worded_list_iff.mp h v hv)⟩,
      spelled_of_allowed (by decide)⟩
  | object members ih =>
    rw [compact]
    refine spelled_append.mpr ⟨spelled_append.mpr ⟨spelled_of_allowed (by decide),
      spelled_compactMembers true fun e he => ?_⟩, spelled_of_allowed (by decide)⟩
    obtain ⟨hkey, hv⟩ := worded_object_iff.mp h e he
    exact ⟨hkey, ih e he hv⟩
  | leaf v hlist hobject =>
    cases v with
    | null => exact spelled_of_allowed (by decide)
    | boolean b => cases b <;> exact spelled_of_allowed (by decide)
    | integer n => exact spelled_toString n
    | real x =>
      show Spelled given ((precise? x).getD "null")
      cases hx : precise? x with
      | none => exact spelled_of_allowed (by decide)
      | some s => exact spelled_precise hx
    | text s => exact spelled_quote (worded_text_iff.mp h)
    | list items => exact absurd rfl (hlist items)
    | object members => exact absurd rfl (hobject members)

theorem Worded.spelled_shownText {v : Json} (h : v.Worded given) : Spelled given v.shownText := by
  cases v with
  | text s => exact worded_text_iff.mp h
  | null => exact spelled_empty
  | integer n => exact spelled_tidy 6 _
  | real x => exact spelled_tidy 6 x
  | boolean | list | object => exact h.spelled_compact

end Json

/-! ### values of formulas -/

/-- what a text between quotes stands for has no other characters -/
theorem Lexeme.mem_of_mem_unescape {cs : List Char} {c : Char} (h : c ∈ unescape cs) : c ∈ cs := by
  fun_induction unescape cs with
  | case1 d cs hquote ih =>
    rcases List.mem_cons.mp h with rfl | h
    · exact List.mem_cons_of_mem _ List.mem_cons_self
    · exact List.mem_cons_of_mem _ (List.mem_cons_of_mem _ (ih h))
  | case2 d cs hquote ih =>
    rcases List.mem_cons.mp h with rfl | h
    · exact List.mem_cons_self
    · rcases List.mem_cons.mp h with rfl | h
      · exact List.mem_cons_of_mem _ List.mem_cons_self
      · exact List.mem_cons_of_mem _ (List.mem_cons_of_mem _ (ih h))
  | case3 d cs hslash ih =>
    rcases List.mem_cons.mp h with rfl | h
    · exact List.mem_cons_self
    · exact List.mem_cons_of_mem _ (ih h)
  | case4 => exact h

namespace Formula

theorem mem_of_body? {s body : String} (h : body? s = some body) {c : Char} (hc : c ∈ body.toList) :
    c ∈ s.toList := by
  obtain ⟨rest, hrest, h⟩ := Option.bind_eq_some_iff.mp h
  obtain ⟨inner, hinner, h⟩ := Option.bind_eq_some_iff.mp h
  obtain rfl := Option.some.inj (Option.ite_none_left_eq_some.mp h).2
  obtain ⟨-, heq⟩ := Option.ite_none_right_eq_some.mp hinner
  obtain ⟨-, heq'⟩ := Option.ite_none_right_eq_some.mp hrest
  obtain rfl := Option.some.inj heq
  obtain rfl := Option.some.inj heq'
  rw [String.toList_ofList] at hc
  have hmem := List.mem_of_mem_take hc
  rw [String.toList_ofList] at hmem
  exact List.mem_of_mem_drop hmem

/-- the characters of a quoted text stand in the formula -/
theorem mem_of_read_text {source s : String} (h : read source = .ok (.text s)) {c : Char}
    (hc : c ∈ s.toList) : c ∈ source.toList := by
  rw [read_eq_run] at h
  obtain ⟨ls, hlex, hrun⟩ := ok_of_bind h
  obtain ⟨d, htokens, hformula⟩ :=
    (Reader.completes_start_iff _ _).mp ((Reader.run_eq_ok_iff _ _ _ _).mp hrun)
  obtain rfl : d = .text s := by
    cases d with
    | text t => exact congrArg Derivation.text (Formula.text.inj hformula)
    | call | path | number => cases hformula
  have hmem : Token.text s ∈ ls.map (·.token) := by
    rw [← htokens]
    exact List.mem_singleton_self _
  obtain ⟨l, hl, htoken⟩ := List.mem_map.mp hmem
  obtain ⟨before, part, behind, heq, -, hlongest⟩ := (Lexeme.tiles_of_ok hlex).stands l hl
  have hspells := hlongest.spells
  rw [htoken] at hspells
  rw [heq]
  refine List.mem_append_right _ (List.mem_append_left _ ?_)
  generalize hs : Token.text s = t at hspells
  cases hspells with
  | text q body hq hbody =>
    obtain rfl := Token.text.inj hs
    rw [String.toList_ofList] at hc
    exact List.mem_cons_of_mem _ (List.mem_append_left _ (Lexeme.mem_of_mem_unescape hc))
  | opening | closing | comma | dot | name | number => cases hs

variable {given : List Char}

theorem worded_of_foldlM {segments : List String} {scope v : Json} (hscope : scope.Worded given)
    (h : segments.foldlM descend scope = some v) : v.Worded given :=
  of_foldlM_descend (fun _ hmembers e he => (Json.worded_object_iff.mp hmembers e he).2)
    (fun _ hitems => Json.worded_list_iff.mp hitems) hscope h

end Formula

theorem Helper.gives_worded {given : List Char} (h : Helper) (args : List Json) :
    Gives (Json.Worded given) (h.apply args) := by
  have hreal : ∀ x, Gives (Json.Worded given) (.ok (.ofReal x) : Except FormulaError Json) :=
    fun x => .ok (Json.worded_ofReal x)
  by_cases hscalar : h = .midpoint
  · subst hscalar
    intro v hv
    obtain ⟨a, b, p, q, -, -, -, rfl⟩ := Helper.apply_midpoint hv
    exact Json.worded_ofPoint _
  · intro v hv
    obtain ⟨z, -, rfl⟩ := (Helper.apply_eq_ok_iff hscalar).mp hv
    exact Json.worded_ofReal z

namespace Scope

variable {given : List Char} {scope : Scope} (hscope : scope.values.Worded given)
include hscope

/-- a formula has values of the scope, numbers, points, or a text of its own -/
theorem worded_evaluate {source : String} (hsource : Spelled given source) :
    Gives (Json.Worded given) (scope.evaluate source) := by
  intro v hv
  obtain ⟨f, hread, heval⟩ := ok_of_bind (ok_of_mapError hv)
  cases f with
  | number x =>
    cases heval
    exact Json.worded_ofReal x
  | text s =>
    cases heval
    exact Json.worded_text_iff.mpr
      (hsource.of_subset fun c hc => Text.mem_trim (Formula.mem_of_read_text hread hc))
  | path segments =>
    rw [Formula.eval, Formula.lookup] at heval
    split at heval
    · rename_i w hw
      cases heval
      exact Formula.worded_of_foldlM hscope hw
    · cases heval
  | call name args =>
    rw [Formula.eval] at heval
    obtain ⟨values, -, hcall⟩ := ok_of_bind heval
    unfold callHelper at hcall
    split at hcall
    · exact Helper.gives_worded _ values v hcall
    · cases hcall

theorem worded_resolve {v : Json} (hv : v.Worded given) : Gives (Json.Worded given)
    (scope.resolve v) := by
  cases v with
  | text s =>
    have hs := Json.worded_text_iff.mp hv
    unfold resolve
    dsimp only
    split
    · rename_i body hbody
      refine scope.worded_evaluate hscope (hs.of_subset fun c hc => ?_)
      exact Formula.mem_of_body? hbody hc
    · exact .ok hv
  | null | boolean | integer | real | list | object => exact .ok hv

/-- the text that a field of a shape resolves to -/
theorem spelled_text {v : Json} (hv : v.Worded given) : Gives (Spelled given) (scope.text v) := by
  intro t ht
  obtain ⟨w, hw, rfl⟩ := ok_of_map ht
  exact (worded_resolve hscope hv w hw).spelled_shownText

end Scope

end Figures
