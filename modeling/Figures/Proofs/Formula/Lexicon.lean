import Figures.Proofs.Formula.Blanks

/-!
# The lexicon of formulas

* `Quoted q cs`              what may stand between two quotes `q`
* `Spells cs t`              the characters `cs` are the token `t`
* `Lexeme.spells_munch`      what is read as the first token of a text spells it
* `Lexeme.longest_munch`     a token that the text starts with is no longer than the one that is
                             read
* `Lexeme.munch_of_spells`   a token in front of a gap is read as itself

The lexicon is stated without the reader of tokens: names, numbers and quoted texts by their
characters.
-/

namespace Figures

open Lexeme

/-- the characters between two quotes `q`: a backslash takes the next one with it, which is no line
end -/
inductive Quoted (q : Char) : List Char → Prop
  | nil : Quoted q []
  | plain (c : Char) (cs : List Char) (hquote : c ≠ q) (hslash : c ≠ '\\') (h : Quoted q cs) :
      Quoted q (c :: cs)
  | escape (c : Char) (cs : List Char) (hend : c ≠ '\n') (h : Quoted q cs) :
      Quoted q ('\\' :: c :: cs)

def minus (negative : Bool) : List Char := if negative then ['-'] else []

/-- the point of a number with the digits behind it -/
def point : List Char → List Char
  | [] => []
  | d :: ds => '.' :: d :: ds

inductive Spells : List Char → Token → Prop
  | opening : Spells ['('] .opening
  | closing : Spells [')'] .closing
  | comma : Spells [','] .comma
  | dot : Spells ['.'] .dot
  | name (c : Char) (cs : List Char) (hc : startsName c = true)
      (hcs : ∀ d ∈ cs, continuesName d = true) : Spells (c :: cs) (.name (String.ofList (c :: cs)))
  | text (q : Char) (body : List Char) (hq : isQuote q = true) (hbody : Quoted q body) :
      Spells (q :: (body ++ [q])) (.text (String.ofList (unescape body)))
  | number (negative : Bool) (ds fs : List Char) (hne : ds ≠ [])
      (hds : ∀ d ∈ ds, d.isDigit = true) (hfs : ∀ d ∈ fs, d.isDigit = true) :
      Spells (minus negative ++ (ds ++ point fs)) (.number (numberOf negative ds fs))

namespace Quoted

variable {q : Char}

/-- a quoted text ends at the first quote that no backslash takes with it -/
theorem quotedSpan_append {body : List Char} (h : Quoted q body) (hq : '\\' ≠ q)
    (rest : List Char) : quotedSpan q (body ++ q :: rest) = (body ++ [q], true) := by
  induction h with
  | nil => exact quotedSpan_quote
  | plain c cs hquote hslash h ih =>
    rw [List.cons_append, quotedSpan_other hquote hslash, ih]
    rfl
  | escape c cs hend h ih =>
    rw [List.cons_append, List.cons_append, quotedSpan_escape hq, if_neg hend, ih]
    rfl

theorem exists_of_quotedSpan {cs : List Char} (h : (quotedSpan q cs).2 = true) :
    ∃ body, (quotedSpan q cs).1 = body ++ [q] ∧ Quoted q body := by
  induction cs using quotedSpan.induct q with
  | case1 => cases h
  | case2 cs =>
    rw [quotedSpan_quote]
    exact ⟨[], rfl, .nil⟩
  | case3 hne =>
    rw [quotedSpan_slash hne] at h
    cases h
  | case4 cs hne =>
    rw [quotedSpan_escape hne, if_pos rfl] at h
    cases h
  | case5 d cs hd hne ih =>
    rw [quotedSpan_escape hne, if_neg hd] at h ⊢
    obtain ⟨body, hspan, hbody⟩ := ih h
    exact ⟨'\\' :: d :: body, by rw [hspan]; rfl, .escape d body hd hbody⟩
  | case6 c cs hne hslash ih =>
    rw [quotedSpan_other hne hslash] at h ⊢
    obtain ⟨body, hspan, hbody⟩ := ih h
    exact ⟨c :: body, by rw [hspan]; rfl, .plain c body hne hslash hbody⟩

end Quoted

theorem slash_ne_of_isQuote {q : Char} (h : isQuote q = true) : '\\' ≠ q := by
  rintro rfl
  exact absurd h (by decide)

namespace Lexeme

variable {c : Char} {cs : List Char}

/-! ### numbers -/

theorem munch_minus (cs : List Char) :
    munch '-' cs = if (cs.takeWhile Char.isDigit).isEmpty then ⟨none, []⟩ else
      ⟨some (.number (numberOf true (cs.takeWhile Char.isDigit)
          ((places (cs.drop (cs.takeWhile Char.isDigit).length)).drop 1))),
        cs.takeWhile Char.isDigit ++ places (cs.drop (cs.takeWhile Char.isDigit).length)⟩ := rfl

theorem drop_point (fs : List Char) : (point fs).drop 1 = fs := by
  cases fs <;> rfl

/-- what `places` finds is a point with digits behind it, or nothing -/
theorem places_eq_point (cs : List Char) :
    ∃ fs, places cs = point fs ∧ ∀ d ∈ fs, d.isDigit = true := by
  unfold places
  split
  · rename_i rest
    cases hfs : rest.takeWhile Char.isDigit with
    | nil => exact ⟨[], rfl, fun d hd => absurd hd List.not_mem_nil⟩
    | cons f fs =>
      refine ⟨f :: fs, rfl, fun d hd => ?_⟩
      rw [← hfs] at hd
      exact List.mem_takeWhile_imp hd
  · exact ⟨[], rfl, fun d hd => absurd hd List.not_mem_nil⟩

/-- digits and what `places` finds behind them are a number -/
theorem spells_number (negative : Bool) {ds : List Char} (hne : ds ≠ [])
    (hds : ∀ d ∈ ds, d.isDigit = true) (cs : List Char) :
    Spells (minus negative ++ (ds ++ places cs))
      (.number (numberOf negative ds ((places cs).drop 1))) := by
  obtain ⟨fs, hplaces, hfs⟩ := places_eq_point cs
  rw [hplaces, drop_point]
  exact .number negative ds fs hne hds hfs

theorem stops_point {rest : List Char} (fs : List Char) (hrest : Stops Char.isDigit rest) :
    Stops Char.isDigit (point fs ++ rest) := by
  cases fs with
  | nil => exact hrest
  | cons f fs =>
    intro d hd
    obtain rfl := Option.some.inj hd
    rfl

theorem takeWhile_digits {ds rest : List Char} (hds : ∀ d ∈ ds, d.isDigit = true)
    (hrest : Stops Char.isDigit rest) : (ds ++ rest).takeWhile Char.isDigit = ds :=
  takeWhile_append_of_stops (List.all_eq_true.mpr hds) hrest

theorem length_le_takeWhile {p : Char → Bool} {ds : List Char} (hds : ∀ d ∈ ds, p d = true)
    (h : ds <+: cs) : ds.length ≤ (cs.takeWhile p).length := by
  obtain ⟨rest, rfl⟩ := h
  rw [List.takeWhile_append_of_pos hds, List.length_append]
  exact Nat.le_add_right _ _

/-- a number without a sign at the start of a text is part of its digits and places -/
theorem length_le_places {ds fs : List Char} (hds : ∀ d ∈ ds, d.isDigit = true)
    (hfs : ∀ d ∈ fs, d.isDigit = true) (h : ds ++ point fs <+: cs) :
    (ds ++ point fs).length ≤ (cs.takeWhile Char.isDigit
      ++ places (cs.drop (cs.takeWhile Char.isDigit).length)).length := by
  cases fs with
  | nil =>
    rw [point, List.append_nil] at h ⊢
    rw [List.length_append]
    exact (length_le_takeWhile hds h).trans (Nat.le_add_right _ _)
  | cons f fs =>
    obtain ⟨rest, rfl⟩ := h
    have hlong : (f :: fs).length ≤ ((f :: fs ++ rest).takeWhile Char.isDigit).length :=
      length_le_takeWhile hfs (List.prefix_append _ rest)
    have hstops : Stops Char.isDigit ('.' :: (f :: fs ++ rest)) := by
      intro d hd
      obtain rfl := Option.some.inj hd
      rfl
    rw [point, List.append_assoc, List.cons_append, takeWhile_digits hds hstops, List.drop_left,
      places, if_neg (by rw [List.isEmpty_iff, ← List.length_eq_zero_iff,
        List.length_cons] at *; omega)]
    simp only [List.length_append, List.length_cons] at *
    omega

/-! ### the first token spells itself -/

theorem munch_mark (hname : startsName c = false) (hquote : isQuote c = false)
    (hnumber : ¬ (c = '-' ∨ c.isDigit = true)) :
    munch c cs = if c = '(' then ⟨some .opening, []⟩ else if c = ')' then ⟨some .closing, []⟩
      else if c = ',' then ⟨some .comma, []⟩ else if c = '.' then ⟨some .dot, []⟩
      else ⟨none, []⟩ := by
  simp only [munch, hname, hquote, if_neg hnumber, Bool.false_eq_true, if_false]

theorem spells_munch {t : Token} (h : (munch c cs).token? = some t) :
    Spells (c :: (munch c cs).extra) t := by
  have hdigits : ∀ d ∈ cs.takeWhile Char.isDigit, d.isDigit = true := fun d hd =>
    List.mem_takeWhile_imp hd
  by_cases hname : startsName c = true
  · rw [munch_name hname] at h ⊢
    obtain rfl := Option.some.inj h
    exact .name c _ hname fun d hd => List.mem_takeWhile_imp hd
  by_cases hquote : isQuote c = true
  · rw [munch_quote hquote] at h ⊢
    dsimp only at h ⊢
    split at h
    · rename_i hclosed
      obtain rfl := Option.some.inj h
      obtain ⟨body, hspan, hbody⟩ := Quoted.exists_of_quotedSpan hclosed
      rw [hspan, List.dropLast_concat]
      exact .text c body hquote hbody
    · cases h
  by_cases hdigit : c.isDigit = true
  · rw [munch_digit hdigit] at h ⊢
    obtain rfl := Option.some.inj h
    exact spells_number false (List.cons_ne_nil c _) (List.forall_mem_cons.mpr ⟨hdigit, hdigits⟩) _
  by_cases hminus : c = '-'
  · subst hminus
    rw [munch_minus] at h ⊢
    split at h
    · cases h
    · rename_i hne
      rw [if_neg hne]
      obtain rfl := Option.some.inj h
      rw [List.isEmpty_iff] at hne
      exact spells_number true hne hdigits _
  · rw [munch_mark (Bool.eq_false_iff.mpr hname) (Bool.eq_false_iff.mpr hquote)
      (not_or.mpr ⟨hminus, hdigit⟩)] at h ⊢
    split_ifs at h ⊢ with h1 h2 h3 h4
    · obtain rfl := Option.some.inj h
      exact h1 ▸ .opening
    · obtain rfl := Option.some.inj h
      exact h2 ▸ .closing
    · obtain rfl := Option.some.inj h
      exact h3 ▸ .comma
    · obtain rfl := Option.some.inj h
      exact h4 ▸ .dot

/-! ### the first token is the longest one -/

theorem longest_munch {part : List Char} {t : Token} (h : Spells part t)
    (hpart : part <+: c :: cs) :
    (munch c cs).token?.isSome = true ∧ part.length ≤ (c :: (munch c cs).extra).length := by
  -- the first character of the token decides how the text is read
  cases h with
  | opening | closing | comma | dot =>
    obtain ⟨rfl, -⟩ := List.cons_prefix_cons.mp hpart
    exact ⟨rfl, Nat.le_refl 1⟩
  | name d ds hd hds =>
    obtain ⟨rfl, hrest⟩ := List.cons_prefix_cons.mp hpart
    rw [munch_name hd]
    exact ⟨rfl, Nat.succ_le_succ (length_le_takeWhile hds hrest)⟩
  | text q body hq hbody =>
    obtain ⟨rfl, rest, rfl⟩ := List.cons_prefix_cons.mp hpart
    rw [List.append_assoc, List.singleton_append, munch_quote hq,
      hbody.quotedSpan_append (slash_ne_of_isQuote hq)]
    exact ⟨rfl, Nat.le_refl _⟩
  | number negative ds fs hne hds hfs =>
    cases negative with
    | true =>
      obtain ⟨rfl, hrest⟩ := List.cons_prefix_cons.mp hpart
      have hlong := length_le_takeWhile hds ((List.prefix_append ds (point fs)).trans hrest)
      have hpos := List.length_pos_iff.mpr hne
      rw [munch_minus, if_neg (by rw [List.isEmpty_iff, ← List.length_eq_zero_iff]; omega)]
      exact ⟨rfl, Nat.succ_le_succ (length_le_places hds hfs hrest)⟩
    | false =>
      cases ds with
      | nil => exact absurd rfl hne
      | cons d ds =>
        obtain ⟨rfl, hrest⟩ := List.cons_prefix_cons.mp hpart
        rw [munch_digit (hds d List.mem_cons_self)]
        exact ⟨rfl, Nat.succ_le_succ
          (length_le_places (fun e he => hds e (List.mem_cons_of_mem d he)) hfs hrest)⟩

/-- where no token is read, none stands at the start of the text -/
theorem not_spells_of_none (h : (munch c cs).token? = none) (part : List Char) (t : Token)
    (hspells : Spells part t) : ¬ part <+: c :: cs := by
  intro hpart
  have hsome := (longest_munch hspells hpart).1
  rw [h] at hsome
  cases hsome

/-! ### tokens in front of gaps -/

theorem exists_cons_of_spells {part : List Char} {t : Token} (h : Spells part t) :
    ∃ c cs, part = c :: cs ∧ isGap c = false := by
  cases h with
  | opening | closing | comma | dot => exact ⟨_, _, rfl, rfl⟩
  | name c cs hc hcs =>
    exact ⟨c, cs, rfl, not_isGap_of_continuesName (continuesName_iff.mpr (.inl hc))⟩
  | text q body hq hbody =>
    refine ⟨q, body ++ [q], rfl, ?_⟩
    simp only [isQuote, Bool.or_eq_true, beq_iff_eq] at hq
    rcases hq with rfl | rfl <;> rfl
  | number negative ds fs hne hds hfs =>
    cases negative with
    | true => exact ⟨_, _, rfl, rfl⟩
    | false =>
      cases ds with
      | nil => exact absurd rfl hne
      | cons d ds =>
        exact ⟨d, ds ++ point fs, rfl,
          not_isGap_of_continuesName (continuesName_iff.mpr (.inr (hds d List.mem_cons_self)))⟩

section
variable {rest : List Char} (hrest : ∀ d ∈ rest.head?, isGap d = true)
include hrest

theorem stops_name_of_gap : Stops continuesName rest := fun d hd =>
  Bool.eq_false_iff.mpr fun hname => by
    have hgap := hrest d hd
    rw [not_isGap_of_continuesName hname] at hgap
    cases hgap

theorem stops_digit_of_gap : Stops Char.isDigit rest := fun d hd =>
  Bool.eq_false_iff.mpr fun hdigit => by
    have hname := stops_name_of_gap hrest d hd
    rw [continuesName_iff.mpr (.inr hdigit)] at hname
    cases hname

theorem places_of_gap : places rest = [] := by
  unfold places
  split
  · exact absurd (hrest '.' rfl) (by decide)
  · rfl

theorem places_point_of_gap {fs : List Char} (hfs : ∀ d ∈ fs, d.isDigit = true) :
    places (point fs ++ rest) = point fs := by
  cases fs with
  | nil => exact places_of_gap hrest
  | cons f fs =>
    rw [point, List.cons_append, places, takeWhile_digits hfs (stops_digit_of_gap hrest)]
    rfl

/-- a token in front of a gap or of the end is read as itself -/
theorem munch_of_spells {t : Token} (h : Spells (c :: cs) t) :
    munch c (cs ++ rest) = ⟨some t, cs⟩ := by
  generalize hpart : c :: cs = part at h
  cases h with
  | opening | closing | comma | dot =>
    obtain ⟨rfl, rfl⟩ := List.cons.inj hpart
    rfl
  | name d ds hd hds =>
    obtain ⟨rfl, rfl⟩ := List.cons.inj hpart
    rw [munch_name hd, takeWhile_append_of_stops (List.all_eq_true.mpr hds)
      (stops_name_of_gap hrest)]
  | text q body hq hbody =>
    obtain ⟨rfl, rfl⟩ := List.cons.inj hpart
    rw [List.append_assoc, List.singleton_append, munch_quote hq,
      hbody.quotedSpan_append (slash_ne_of_isQuote hq), List.dropLast_concat]
    rfl
  | number negative ds fs hne hds hfs =>
    have hstops := stops_point fs (stops_digit_of_gap hrest)
    cases negative with
    | true =>
      obtain ⟨rfl, hcs⟩ := List.cons.inj hpart
      obtain rfl : cs = ds ++ point fs := hcs
      rw [List.append_assoc, munch_minus, takeWhile_digits hds hstops, List.drop_left,
        places_point_of_gap hrest hfs, drop_point, if_neg (by rwa [List.isEmpty_iff])]
    | false =>
      cases ds with
      | nil => exact absurd rfl hne
      | cons d ds =>
        obtain ⟨rfl, hcs⟩ := List.cons.inj hpart
        obtain rfl : cs = ds ++ point fs := hcs
        rw [List.append_assoc, munch_digit (hds c List.mem_cons_self),
          takeWhile_digits (fun e he => hds e (List.mem_cons_of_mem c he)) hstops, List.drop_left,
          places_point_of_gap hrest hfs, drop_point]

end

end Lexeme

end Figures
