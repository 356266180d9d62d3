import Figures.Formula.Value
import Figures.Proofs.Formula.Lexing
import Figures.Proofs.Formula.Reader
import Figures.Proofs.Number.Decimal

/-!
# Steps of paths

* `Step`                   a step down into a value: a key of an object, or a place of a list
* `Step.follow`            what is one step down
* `Step.lexes_spelled`     the tokens of steps with dots between them: two places in a row come out
                           as one number, with the second one behind its point
* `Step.exists_key_iff`    a place comes out as itself if and only if it is kept
* `Step.exists_keys_iff`   so do all steps if and only if no two places stand in a row, and all are
                           kept
-/

namespace Figures

open Figures.Derivation (dotted)

/-- a step down into a value: a key of an object, or a place of a list -/
inductive Step where
  | key (name : String) (named : Lexeme.isName name = true)
  | place (n : ℕ)

namespace Step

/-- the segment of a path; places in decimal -/
def shown : Step → String
  | key name _ => name
  | place n => Nat.repr n

def isPlace : Step → Bool
  | key .. => false
  | place _ => true

/-- what is one step down -/
def follow (v : Json) : Step → Option Json
  | key name _ => v.member? name
  | place n =>
    match v with
    | .list items => items[n]?
    | v => v.member? (Nat.repr n)

/-! ### the tokens of steps -/

def spelled (steps : List Step) : List Char := steps.flatMap fun s => '.' :: s.shown.toList

/-- the number that the places `m` and `n` in a row are read as -/
def merged (m n : ℕ) : Float := Lexeme.numberOf false (Nat.repr m).toList (Nat.repr n).toList

/-- the number that the place `n` by itself is read as -/
def unmerged (n : ℕ) : Float := Lexeme.numberOf false (Nat.repr n).toList []

/-- the tokens of steps; a point between digits belongs to a number -/
def lexed : List Step → List Token
  | [] => []
  | .key name _ :: rest => .dot :: .name name :: lexed rest
  | .place m :: .place n :: rest => .dot :: .number (merged m n) :: lexed rest
  | .place n :: rest => .dot :: .number (unmerged n) :: lexed rest

theorem lexed_place (n : ℕ) {rest : List Step} (h : ∀ m more, rest ≠ .place m :: more) :
    lexed (.place n :: rest) = .dot :: .number (unmerged n) :: lexed rest := by
  rw [lexed]
  exact h

theorem all_continuesName (s : Step) : s.shown.toList.all Lexeme.continuesName = true := by
  cases s with
  | key name named =>
    obtain ⟨c, cs, hname, hc, hcs⟩ := Lexeme.exists_cons_of_isName named
    rw [shown, hname, List.all_cons, hcs, Lexeme.continuesName_iff.mpr (.inl hc)]
    rfl
  | place n =>
    refine List.all_eq_true.mpr fun c hc => Lexeme.continuesName_iff.mpr (.inr ?_)
    exact List.all_eq_true.mp (repr_digits n) c hc

theorem spelled_cons (s : Step) (rest : List Step) :
    spelled (s :: rest) = '.' :: (s.shown.toList ++ spelled rest) := List.flatMap_cons

theorem stops_spelled {p : Char → Bool} (hp : p '.' = false) (steps : List Step) :
    Lexeme.Stops p (spelled steps) := by
  intro c hc
  cases steps with
  | nil => cases hc
  | cons s rest =>
    obtain rfl : '.' = c := Option.some.inj hc
    exact hp

theorem places_place (n : ℕ) (rest : List Step) :
    Lexeme.places (spelled (.place n :: rest)) = '.' :: (Nat.repr n).toList := by
  have hspan : ((Nat.repr n).toList ++ spelled rest).takeWhile Char.isDigit = (Nat.repr n).toList :=
    Lexeme.takeWhile_append_of_stops (repr_digits n) (stops_spelled (by decide) rest)
  rw [spelled_cons, Lexeme.places, shown, hspan, if_neg (by simp)]

theorem places_other {steps : List Step} (h : ∀ n rest, steps ≠ .place n :: rest) :
    Lexeme.places (spelled steps) = [] := by
  cases steps with
  | nil => rfl
  | cons s rest =>
    cases s with
    | place n => exact absurd rfl (h n rest)
    | key name named =>
      obtain ⟨c, cs, hname, hc, -⟩ := Lexeme.exists_cons_of_isName named
      have hspan : (name.toList ++ spelled rest).takeWhile Char.isDigit = [] := by
        rw [hname, List.cons_append, List.takeWhile_cons_of_neg]
        rw [Lexeme.not_isDigit_of_startsName hc]
        exact Bool.false_ne_true
      rw [spelled_cons, Lexeme.places, shown, hspan]
      rfl

theorem lexes_spelled (steps : List Step) : Lexes (spelled steps) (lexed steps) := by
  induction steps using lexed.induct with
  | case1 => exact .nil
  | case2 name named rest ih =>
    rw [spelled_cons, lexed]
    exact .dot (.name named (stops_spelled (by decide) rest) ih)
  | case3 m n rest ih =>
    have hafter : (spelled (.place n :: rest)).drop ('.' :: (Nat.repr n).toList).length
        = spelled rest := by
      rw [spelled_cons]
      exact List.drop_left
    have hnumber := Lexes.number (repr_ne_nil m) (repr_digits m) (stops_spelled (by decide) _)
      (places_place n rest) hafter ih
    rw [spelled_cons, lexed]
    exact .dot hnumber
  | case4 n rest hother ih =>
    have hnumber := Lexes.number (repr_ne_nil n) (repr_digits n) (stops_spelled (by decide) _)
      (places_other hother) rfl ih
    rw [spelled_cons, lexed_place n hother]
    exact .dot hnumber

/-! ### the segments behind the tokens -/

/-- a place by itself is read as its number, rounded -/
theorem isCount_unmerged {n : ℕ} (h : n ≤ word64) : IsCount (unmerged n)
    (Binary.nearestCount n) := by
  have hdigits : unmerged n = nearestDecimal n ((Nat.repr n).toList ++ []).length 0 := by
    rw [unmerged, Lexeme.numberOf, if_neg Bool.false_ne_true, List.append_nil, digitsValue_repr,
      List.length_nil, Nat.cast_zero, neg_zero]
  rw [hdigits]
  exact isCount_nearestDecimal h _

/-- a place comes out as it is if and only if it is kept -/
theorem exists_key_iff (n : ℕ) :
    (∃ k : PathKey, k.token = .number (unmerged n) ∧ k.shown = Nat.repr n) ↔ Kept n := by
  constructor
  · rintro ⟨k, htoken, hshown⟩
    cases k with
    | name s => cases htoken
    | place x m hx =>
      obtain rfl : x = unmerged n := Token.number.inj htoken
      rw [PathKey.shown] at hshown
      have hmin : min word64 m = n := Nat.repr_injective hshown
      have hword : n ≤ word64 := hmin ▸ Nat.min_le_left _ _
      rw [hx.unique (isCount_unmerged hword)] at hmin
      exact (min_nearestCount_iff hword).mp hmin
  · intro h
    refine ⟨.place (unmerged n) _ (isCount_unmerged h.le), rfl, ?_⟩
    rw [PathKey.shown, (min_nearestCount_iff h.le).mpr h]

/-- not two places -/
def Apart (s t : Step) : Prop := s.isPlace = false ∨ t.isPlace = false

theorem length_dotted (keys : List PathKey) : (dotted keys).length = 2 * keys.length := by
  induction keys with
  | nil => rfl
  | cons k keys ih =>
    rw [dotted, List.length_cons, List.length_cons, ih, List.length_cons]
    omega

/-- behind the first name stands a dot, or nothing -/
theorem lexed_ne_opening (steps : List Step) (more : List Token) :
    lexed steps ≠ .opening :: more := by
  fun_cases lexed steps <;> nofun

theorem length_lexed_le (steps : List Step) : (lexed steps).length ≤ 2 * steps.length := by
  induction steps using lexed.induct with
  | case1 => exact Nat.le_refl _
  | case2 name named rest ih =>
    simp only [lexed, List.length_cons]
    omega
  | case3 m n rest ih =>
    simp only [lexed, List.length_cons]
    omega
  | case4 n rest hother ih =>
    simp only [lexed_place n hother, List.length_cons]
    omega

theorem exists_keys_cons (t : Token) (segment : String) (rest : List Step) :
    (∃ keys : List PathKey, dotted keys = .dot :: t :: lexed rest ∧
      keys.map PathKey.shown = segment :: rest.map shown) ↔
    (∃ k : PathKey, k.token = t ∧ k.shown = segment) ∧
      ∃ keys : List PathKey, dotted keys = lexed rest ∧
        keys.map PathKey.shown = rest.map shown := by
  constructor
  · rintro ⟨keys, htokens, hshown⟩
    cases keys with
    | nil => cases htokens
    | cons k keys =>
      obtain ⟨htoken, htokens⟩ := List.cons.inj (List.cons.inj htokens).2
      obtain ⟨hk, hkeys⟩ := List.cons.inj hshown
      exact ⟨⟨k, htoken, hk⟩, keys, htokens, hkeys⟩
  · rintro ⟨⟨k, htoken, hk⟩, keys, htokens, hkeys⟩
    exact ⟨k :: keys, by rw [dotted, htoken, htokens], by rw [List.map_cons, hk, hkeys]⟩

/-- the tokens of steps are those of their segments if and only if no two places stand in a row, and
all places are kept -/
theorem exists_keys_iff (steps : List Step) :
    (∃ keys : List PathKey, dotted keys = lexed steps ∧
      keys.map PathKey.shown = steps.map shown) ↔
    steps.IsChain Apart ∧ ∀ n, .place n ∈ steps → Kept n := by
  induction steps using lexed.induct with
  | case1 => exact iff_of_true ⟨[], rfl, rfl⟩ ⟨.nil, fun n hn => absurd hn List.not_mem_nil⟩
  | case2 name named rest ih =>
    have hkey : ∃ k : PathKey, k.token = .name name ∧ k.shown = name := ⟨.name name, rfl, rfl⟩
    rw [lexed, List.map_cons, shown, exists_keys_cons, ih, List.isChain_cons]
    refine ⟨fun h => ⟨⟨fun _ _ => .inl rfl, h.2.1⟩, fun n hn => h.2.2 n ?_⟩,
      fun h => ⟨hkey, h.1.2, fun n hn => h.2 n (List.mem_cons_of_mem _ hn)⟩⟩
    exact (List.mem_cons.mp hn).resolve_left nofun
  | case3 m n rest ih =>
    refine iff_of_false ?_ ?_
    · -- one number stands for both places, so there are tokens for one segment less
      rintro ⟨keys, htokens, hshown⟩
      have hkeys := congrArg List.length hshown
      have hlength := congrArg List.length htokens
      have hle := length_lexed_le rest
      simp only [List.length_map, List.length_cons] at hkeys
      rw [length_dotted, lexed, List.length_cons, List.length_cons] at hlength
      omega
    · rintro ⟨hchain, -⟩
      rcases (List.isChain_cons_cons.mp hchain).1 with h | h <;> cases h
  | case4 n rest hother ih =>
    rw [lexed_place n hother, List.map_cons, shown, exists_keys_cons, exists_key_iff, ih,
      List.isChain_cons]
    constructor
    · rintro ⟨hn, hchain, hkept⟩
      refine ⟨⟨fun s hs => .inr ?_, hchain⟩, fun m hm => ?_⟩
      · cases s with
        | key => rfl
        | place m =>
          obtain ⟨more, rfl⟩ := List.head?_eq_some_iff.mp hs
          exact absurd rfl (hother m more)
      · rcases List.mem_cons.mp hm with h | h
        · exact place.inj h ▸ hn
        · exact hkept m h
    · rintro ⟨⟨-, hchain⟩, hkept⟩
      exact ⟨hkept n List.mem_cons_self, hchain, fun m hm => hkept m (List.mem_cons_of_mem _ hm)⟩

end Step

end Figures
