import Figures.Formula.Token
import Figures.Proofs.Number.Fixed
import Mathlib

/-!
# Characters as tokens

* `Lexeme.isName`     the texts that are names
* `Lexes cs ts`       the characters `cs` are read as the tokens `ts`
* `Lexes.cons`        one token at the start, and the tokens behind it
* `Lexes.dot`, `Lexes.name`, `Lexes.number`    a dot, a name and a number at the start

A token is as long as possible, so each lemma asks what stands behind the token.
-/

namespace Figures

namespace Lexeme

def isName (s : String) : Bool :=
  match s.toList with
  | [] => false
  | c :: cs => startsName c && cs.all continuesName

theorem exists_cons_of_isName {s : String} (h : isName s = true) :
    ∃ c cs, s.toList = c :: cs ∧ startsName c = true ∧ cs.all continuesName = true := by
  rw [isName] at h
  split at h
  · cases h
  · rename_i c cs heq
    rw [Bool.and_eq_true] at h
    exact ⟨c, cs, heq, h⟩

/-- what stands at the front does not go on with characters that satisfy `p` -/
def Stops (p : Char → Bool) (rest : List Char) : Prop := ∀ c ∈ rest.head?, p c = false

theorem takeWhile_append_of_stops {p : Char → Bool} {cs rest : List Char} (hcs : cs.all p = true)
    (hrest : Stops p rest) : (cs ++ rest).takeWhile p = cs := by
  rw [List.takeWhile_append_of_pos (List.all_eq_true.mp hcs)]
  cases rest with
  | nil => rw [List.takeWhile_nil, List.append_nil]
  | cons c rest => rw [List.takeWhile_cons_of_neg (by simp [hrest c rfl]), List.append_nil]

/-! ### digits and the characters of names -/

section
variable {c : Char}

theorem startsName_bounds (h : startsName c = true) : 65 ≤ c.toNat ∧ c.toNat ≤ 122 := by
  simp only [startsName, Char.isAlpha, Char.isUpper, Char.isLower, Bool.or_eq_true,
    Bool.and_eq_true, decide_eq_true_eq, beq_iff_eq, ge_iff_le, UInt32.le_iff_toNat_le] at h
  change (65 ≤ c.toNat ∧ c.toNat ≤ 90 ∨ 97 ≤ c.toNat ∧ c.toNat ≤ 122) ∨ c = '_' at h
  rcases h with (h | h) | rfl
  · omega
  · omega
  · decide

theorem continuesName_iff : continuesName c = true ↔ startsName c = true ∨ c.isDigit = true := by
  simp only [continuesName, startsName, Char.isAlphanum, Bool.or_eq_true]
  exact or_right_comm

theorem continuesName_bounds (h : continuesName c = true) : 48 ≤ c.toNat ∧ c.toNat ≤ 122 := by
  rcases continuesName_iff.mp h with h | h
  · have hbounds := startsName_bounds h
    omega
  · have hbounds := isDigit_bounds h
    omega

theorem not_startsName_of_isDigit (h : c.isDigit = true) : startsName c = false := by
  refine Bool.eq_false_iff.mpr fun hname => ?_
  have hdigit := isDigit_bounds h
  have hbounds := startsName_bounds hname
  omega

theorem not_isDigit_of_startsName (h : startsName c = true) : c.isDigit = false := by
  refine Bool.eq_false_iff.mpr fun hdigit => ?_
  rw [not_startsName_of_isDigit hdigit] at h
  cases h

/-- characters of names are told apart from all others -/
theorem ne_of_continuesName {d : Char} (h : continuesName c = true) (hd : continuesName d = false) :
    c ≠ d := by
  rintro rfl
  rw [h] at hd
  cases hd

theorem beq_of_continuesName {d : Char} (h : continuesName c = true)
    (hd : continuesName d = false) :
    (c == d) = false := beq_eq_false_iff_ne.mpr (ne_of_continuesName h hd)

theorem not_isGap_of_continuesName (h : continuesName c = true) : isGap c = false := by
  rw [isGap, beq_of_continuesName h (by decide), beq_of_continuesName h (by decide),
    beq_of_continuesName h (by decide), beq_of_continuesName h (by decide)]
  rfl

theorem not_isQuote_of_continuesName (h : continuesName c = true) : isQuote c = false := by
  rw [isQuote, beq_of_continuesName h (by decide), beq_of_continuesName h (by decide)]
  rfl

end

/-! ### the first token -/

section
variable {c : Char} {cs : List Char}

theorem munch_name (h : startsName c = true) :
    munch c cs = ⟨some (.name (String.ofList (c :: cs.takeWhile continuesName))),
      cs.takeWhile continuesName⟩ := by
  have hne : ∀ d, continuesName d = false → c ≠ d := fun d hd =>
    ne_of_continuesName (continuesName_iff.mpr (.inl h)) hd
  rw [munch, if_neg (hne '(' (by decide)), if_neg (hne ')' (by decide)),
    if_neg (hne ',' (by decide)), if_neg (hne '.' (by decide)), if_pos h]

theorem munch_digit (h : c.isDigit = true) :
    munch c cs = ⟨some (.number (numberOf false (c :: cs.takeWhile Char.isDigit)
        ((places (cs.drop (cs.takeWhile Char.isDigit).length)).drop 1))),
      cs.takeWhile Char.isDigit ++ places (cs.drop (cs.takeWhile Char.isDigit).length)⟩ := by
  have hname : continuesName c = true := continuesName_iff.mpr (.inr h)
  have hne : ∀ d, continuesName d = false → c ≠ d := fun d hd => ne_of_continuesName hname hd
  rw [munch, if_neg (hne '(' (by decide)), if_neg (hne ')' (by decide)),
    if_neg (hne ',' (by decide)), if_neg (hne '.' (by decide)),
    if_neg (by rw [not_startsName_of_isDigit h]; decide),
    if_neg (by rw [not_isQuote_of_continuesName hname]; decide), if_pos (.inr h)]
  dsimp only
  rw [if_neg (hne '-' (by decide))]

end

end Lexeme

open Lexeme

/-- the characters are read as the tokens, wherever they stand -/
def Lexes (cs : List Char) (ts : List Token) : Prop :=
  ∀ start, ∃ ls, lexFrom start cs = .ok ls ∧ ls.map Lexeme.token = ts

namespace Lexes

variable {c : Char} {cs extra rest : List Char} {t : Token} {ts : List Token}

theorem nil : Lexes [] [] := fun _ => ⟨[], by rw [lexFrom], rfl⟩

theorem cons (hgap : isGap c = false) (hmunch : munch c cs = ⟨some t, extra⟩)
    (hrest : cs.drop extra.length = rest) (h : Lexes rest ts) : Lexes (c :: cs) (t :: ts) := by
  intro start
  obtain ⟨ls, hlex, htokens⟩ := h (start + byteSize (c :: extra))
  refine ⟨⟨t, ⟨start, start + byteSize (c :: extra)⟩⟩ :: ls, ?_, by rw [List.map_cons, htokens]⟩
  rw [lexFrom, if_neg (by rw [hgap]; decide), hmunch]
  dsimp only
  rw [hrest, hlex]
  rfl

theorem dot (h : Lexes cs ts) : Lexes ('.' :: cs) (.dot :: ts) :=
  cons rfl rfl rfl h

theorem name {s : String} (hs : isName s = true) (hrest : Stops continuesName rest)
    (h : Lexes rest ts) : Lexes (s.toList ++ rest) (.name s :: ts) := by
  obtain ⟨c, cs, heq, hc, hcs⟩ := exists_cons_of_isName hs
  have hspan : (cs ++ rest).takeWhile continuesName = cs := takeWhile_append_of_stops hcs hrest
  have hmunch := @munch_name c (cs ++ rest) hc
  rw [hspan, ← heq, String.ofList_toList] at hmunch
  rw [heq]
  exact cons (not_isGap_of_continuesName (continuesName_iff.mpr (.inl hc))) hmunch List.drop_left h

theorem number {ds fraction after : List Char} (hne : ds ≠ []) (hds : ds.all Char.isDigit = true)
    (hrest : Stops Char.isDigit rest) (hplaces : places rest = fraction)
    (hafter : rest.drop fraction.length = after) (h : Lexes after ts) :
    Lexes (ds ++ rest) (.number (numberOf false ds (fraction.drop 1)) :: ts) := by
  cases ds with
  | nil => exact absurd rfl hne
  | cons c cs =>
    rw [List.all_cons, Bool.and_eq_true] at hds
    have hspan : (cs ++ rest).takeWhile Char.isDigit = cs := takeWhile_append_of_stops hds.2 hrest
    have hmunch := @munch_digit c (cs ++ rest) hds.1
    rw [hspan, List.drop_left, hplaces] at hmunch
    refine cons (not_isGap_of_continuesName (continuesName_iff.mpr (.inr hds.1))) hmunch ?_ h
    rw [List.length_append, ← List.drop_drop, ← hafter]
    exact congrArg (List.drop _) List.drop_left

end Lexes

end Figures
