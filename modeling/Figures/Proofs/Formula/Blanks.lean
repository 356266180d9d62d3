import Figures.Proofs.Except
import Figures.Proofs.Formula.Lexing
import Figures.Text.Blank

/-!
# Tokens with blanks around them

* `Lexeme.munch_append`             blanks behind a text change the first token at most if it is a
                                    text without its closing quote
* `Lexeme.prefix_extra`             a token is a part of the text
* `Lexeme.lexFrom_induction`        one case for each thing that can stand in front
* `Lexeme.lexFrom_ok`, `lexFrom_error`    all places are inside the text
* `Lexeme.lexFrom_shift`, `lexFrom_gaps`, `lexFrom_blanks`, `lexFrom_append_of_ok`,
  `lexFrom_append_of_error`         the tokens of a text that starts later, has gaps in front of it,
  has blanks behind it

The characters with the property White_Space are more than the four that may stand between tokens.
-/

namespace Figures

/-! ### bytes -/

namespace Lexeme

theorem byteSize_eq (cs : List Char) : byteSize cs = String.utf8Len cs := by
  have hsum : ∀ n, cs.foldl (fun n c => n + c.utf8Size) n = n + String.utf8Len cs := by
    induction cs with
    | nil => exact fun n => rfl
    | cons c cs ih =>
      intro n
      rw [List.foldl_cons, ih, String.utf8Len_cons]
      omega
  rw [byteSize, hsum, Nat.zero_add]

theorem byteSize_cons (c : Char) (cs : List Char) :
    byteSize (c :: cs) = c.utf8Size + byteSize cs := by
  rw [byteSize_eq, byteSize_eq, String.utf8Len_cons, Nat.add_comm]

theorem byteSize_append (a b : List Char) : byteSize (a ++ b) = byteSize a + byteSize b := by
  rw [byteSize_eq, byteSize_eq, byteSize_eq, String.utf8Len_append]

theorem byteSize_pos {cs : List Char} (h : cs ≠ []) : 0 < byteSize cs := by
  cases cs with
  | nil => exact absurd rfl h
  | cons c cs =>
    rw [byteSize_cons]
    exact Nat.add_pos_left c.utf8Size_pos _

theorem utf8Size_of_isGap {c : Char} (h : isGap c = true) : c.utf8Size = 1 := by
  simp only [isGap, Bool.or_eq_true, beq_iff_eq] at h
  rcases h with ((rfl | rfl) | rfl) | rfl <;> rfl

theorem byteSize_of_gaps {cs : List Char} (h : ∀ c ∈ cs, isGap c = true) :
    byteSize cs = cs.length := by
  induction cs with
  | nil => rfl
  | cons c cs ih =>
    rw [byteSize_cons, utf8Size_of_isGap (h c List.mem_cons_self),
      ih fun d hd => h d (List.mem_cons_of_mem c hd), List.length_cons, Nat.add_comm]

/-! ### blanks are no part of tokens -/

/-- a character that is neither below the marks nor above the letters is no blank -/
theorem not_isBlank_of_bounds {c : Char} (hlow : 33 ≤ c.toNat) (hhigh : c.toNat ≤ 126) :
    isBlank c = false := by
  refine Bool.eq_false_iff.mpr fun h => ?_
  simp only [isBlank, Bool.or_eq_true, Bool.and_eq_true, decide_eq_true_eq, beq_iff_eq] at h
  omega

section
variable {c : Char} (h : isBlank c = true)
include h

theorem ne_of_isBlank {d : Char} (hd : isBlank d = false) : c ≠ d := by
  rintro rfl
  rw [h] at hd
  cases hd

theorem not_continuesName_of_isBlank : continuesName c = false := by
  refine Bool.eq_false_iff.mpr fun hname => ?_
  obtain ⟨hlow, hhigh⟩ := continuesName_bounds hname
  rw [not_isBlank_of_bounds (by omega) (by omega)] at h
  cases h

theorem not_isDigit_of_isBlank : c.isDigit = false := by
  refine Bool.eq_false_iff.mpr fun hdigit => ?_
  have hname := not_continuesName_of_isBlank h
  rw [continuesName_iff.mpr (.inr hdigit)] at hname
  cases hname

theorem not_isQuote_of_isBlank : isQuote c = false := by
  rw [isQuote, beq_eq_false_iff_ne.mpr (ne_of_isBlank h (by decide)),
    beq_eq_false_iff_ne.mpr (ne_of_isBlank h (by decide))]
  rfl

theorem munch_of_isBlank (cs : List Char) : munch c cs = ⟨none, []⟩ := by
  have hname : startsName c = false := by
    refine Bool.eq_false_iff.mpr fun hstart => ?_
    have hcontinues := not_continuesName_of_isBlank h
    rw [continuesName_iff.mpr (.inl hstart)] at hcontinues
    cases hcontinues
  have hnumber : ¬ (c = '-' ∨ c.isDigit = true) := by
    rw [not_isDigit_of_isBlank h, or_iff_left (by decide)]
    exact ne_of_isBlank h (by decide)
  rw [munch, if_neg (ne_of_isBlank h (by decide)), if_neg (ne_of_isBlank h (by decide)),
    if_neg (ne_of_isBlank h (by decide)), if_neg (ne_of_isBlank h (by decide)),
    if_neg (by rw [hname]; decide), if_neg (by rw [not_isQuote_of_isBlank h]; decide),
    if_neg hnumber]

end

/-! ### quoted texts -/

section
variable {q c : Char} {cs : List Char}

theorem quotedSpan_quote : quotedSpan q (q :: cs) = ([q], true) := by
  rw [quotedSpan.eq_def]
  exact if_pos rfl

theorem quotedSpan_other (hq : c ≠ q) (hslash : c ≠ '\\') :
    quotedSpan q (c :: cs) = (c :: (quotedSpan q cs).1, (quotedSpan q cs).2) := by
  rw [quotedSpan.eq_def]
  simp [hq, hslash]

theorem quotedSpan_slash (hq : '\\' ≠ q) : quotedSpan q ['\\'] = ([], false) := by
  rw [quotedSpan.eq_def]
  simp [hq]

theorem quotedSpan_escape (hq : '\\' ≠ q) :
    quotedSpan q ('\\' :: c :: cs) = if c = '\n' then ([], false)
      else ('\\' :: c :: (quotedSpan q cs).1, (quotedSpan q cs).2) := by
  rw [quotedSpan.eq_def]
  simp [hq]

theorem munch_quote (h : isQuote c = true) :
    munch c cs = ⟨if (quotedSpan c cs).2 then
        some (.text (String.ofList (unescape (quotedSpan c cs).1.dropLast))) else none,
      (quotedSpan c cs).1⟩ := by
  simp only [isQuote, Bool.or_eq_true, beq_iff_eq] at h
  rcases h with rfl | rfl <;> rfl

end

/-! ### the first token, with blanks behind the text -/

section
variable {back : List Char} (hback : ∀ c ∈ back, isBlank c = true)
include hback

theorem takeWhile_append_blanks {p : Char → Bool} (hp : ∀ c, isBlank c = true → p c = false)
    (cs : List Char) : (cs ++ back).takeWhile p = cs.takeWhile p := by
  induction cs with
  | nil =>
    cases back with
    | nil => rfl
    | cons b back =>
      exact List.takeWhile_cons_of_neg (by rw [hp b (hback b List.mem_cons_self)]; decide)
  | cons c cs ih => rw [List.cons_append, List.takeWhile_cons, List.takeWhile_cons, ih]

theorem places_append_blanks (cs : List Char) : places (cs ++ back) = places cs := by
  cases cs with
  | nil =>
    cases back with
    | nil => rfl
    | cons b back =>
      have hdot : b ≠ '.' := ne_of_isBlank (hback b List.mem_cons_self) (by decide)
      simp [places, hdot]
  | cons c cs =>
    by_cases hdot : c = '.'
    · subst hdot
      simp only [List.cons_append, places, takeWhile_append_blanks hback fun _ =>
        not_isDigit_of_isBlank]
    · simp [places, hdot]

theorem quotedSpan_blanks {q : Char} (hq : isBlank q = false) :
    quotedSpan q back = (back, false) := by
  induction back with
  | nil => rfl
  | cons b back ih =>
    have hb := hback b List.mem_cons_self
    have hrest := ih fun c hc => hback c (List.mem_cons_of_mem b hc)
    rw [quotedSpan_other (ne_of_isBlank hb hq) (ne_of_isBlank hb (by decide)), hrest]

/-- a quoted text that is closed is closed at the same place; one that is not ends at the same
place, or it goes on to the end of the blanks -/
theorem quotedSpan_append {q : Char} (hq : isBlank q = false) (cs : List Char) :
    (quotedSpan q (cs ++ back)).2 = (quotedSpan q cs).2 ∧
      ((quotedSpan q (cs ++ back)).1 = (quotedSpan q cs).1 ∨
        (quotedSpan q cs).2 = false ∧ (quotedSpan q (cs ++ back)).1 = cs ++ back) := by
  induction cs using quotedSpan.induct q with
  | case1 =>
    rw [List.nil_append, quotedSpan_blanks hback hq]
    exact ⟨rfl, .inr ⟨rfl, rfl⟩⟩
  | case2 cs =>
    rw [List.cons_append, quotedSpan_quote, quotedSpan_quote]
    exact ⟨rfl, .inl rfl⟩
  | case3 hne =>
    cases back with
    | nil => exact ⟨rfl, .inl rfl⟩
    | cons b back =>
      have hrest := quotedSpan_blanks (fun c hc => hback c (List.mem_cons_of_mem b hc)) hq
      rw [List.cons_append, List.nil_append, quotedSpan_escape hne, quotedSpan_slash hne, hrest]
      by_cases hb : b = '\n'
      · rw [if_pos hb]
        exact ⟨rfl, .inl rfl⟩
      · rw [if_neg hb]
        exact ⟨rfl, .inr ⟨rfl, rfl⟩⟩
  | case4 cs hne =>
    rw [List.cons_append, List.cons_append, quotedSpan_escape hne, quotedSpan_escape hne,
      if_pos rfl, if_pos rfl]
    exact ⟨rfl, .inl rfl⟩
  | case5 d cs hd hne ih =>
    obtain ⟨hclosed, hspan⟩ := ih
    rw [List.cons_append, List.cons_append, quotedSpan_escape hne, quotedSpan_escape hne, if_neg hd,
      if_neg hd]
    refine ⟨hclosed, hspan.imp (fun h => ?_) fun h => ⟨h.1, ?_⟩⟩
    · rw [h]
    · rw [h.2]
  | case6 c cs hne hslash ih =>
    obtain ⟨hclosed, hspan⟩ := ih
    rw [List.cons_append, quotedSpan_other hne hslash, quotedSpan_other hne hslash]
    refine ⟨hclosed, hspan.imp (fun h => ?_) fun h => ⟨h.1, ?_⟩⟩
    · rw [h]
    · rw [h.2]

/-- the first token is the same; what is none ends at the same place, or it goes on to the end of
the blanks -/
theorem munch_append (c : Char) (cs : List Char) :
    (munch c (cs ++ back)).token? = (munch c cs).token? ∧
      ((munch c (cs ++ back)).extra = (munch c cs).extra ∨
        (munch c cs).token? = none ∧ (munch c (cs ++ back)).extra = cs ++ back) := by
  by_cases hquote : isQuote c = true
  · have hc : isBlank c = false := by
      simp only [isQuote, Bool.or_eq_true, beq_iff_eq] at hquote
      rcases hquote with rfl | rfl <;> decide
    obtain ⟨hclosed, hspan⟩ := quotedSpan_append hback hc cs
    rw [munch_quote hquote, munch_quote hquote]
    dsimp only
    cases hend : (quotedSpan c cs).2 with
    | true =>
      rw [hclosed, hend]
      rcases hspan with hspan | ⟨hopen, -⟩
      · rw [hspan]
        exact ⟨rfl, .inl rfl⟩
      · rw [hend] at hopen
        cases hopen
    | false =>
      rw [hclosed, hend]
      exact ⟨rfl, hspan.imp id fun h => ⟨rfl, h.2⟩⟩
  · have hdigits := takeWhile_append_blanks hback (p := Char.isDigit)
      (fun _ => not_isDigit_of_isBlank) cs
    have hplaces : places ((cs ++ back).drop (cs.takeWhile Char.isDigit).length)
        = places (cs.drop (cs.takeWhile Char.isDigit).length) := by
      have htake : cs.takeWhile Char.isDigit <+: cs := List.takeWhile_prefix _
      rw [List.drop_append_of_le_length htake.length_le, places_append_blanks hback]
    have hmunch : munch c (cs ++ back) = munch c cs := by
      rw [munch, munch, if_neg hquote, if_neg hquote, hdigits,
        takeWhile_append_blanks hback fun _ => not_continuesName_of_isBlank]
      dsimp only
      rw [hplaces]
    rw [hmunch]
    exact ⟨rfl, .inl rfl⟩

end

/-! ### what is behind the first token -/

theorem prefix_quotedSpan (q : Char) (cs : List Char) : (quotedSpan q cs).1 <+: cs := by
  induction cs using quotedSpan.induct q with
  | case1 => exact List.nil_prefix
  | case2 cs =>
    rw [quotedSpan_quote]
    exact List.prefix_append [q] cs
  | case3 hne =>
    rw [quotedSpan_slash hne]
    exact List.nil_prefix
  | case4 cs hne =>
    rw [quotedSpan_escape hne, if_pos rfl]
    exact List.nil_prefix
  | case5 d cs hd hne ih =>
    rw [quotedSpan_escape hne, if_neg hd]
    exact (List.prefix_append_right_inj ['\\', d]).mpr ih
  | case6 c cs hne hslash ih =>
    rw [quotedSpan_other hne hslash]
    exact (List.prefix_append_right_inj [c]).mpr ih

theorem prefix_places (cs : List Char) : places cs <+: cs := by
  unfold places
  split
  · split
    · exact List.nil_prefix
    · exact (List.prefix_append_right_inj ['.']).mpr <| List.takeWhile_prefix _
  · exact List.nil_prefix

theorem prefix_extra (c : Char) (cs : List Char) : (munch c cs).extra <+: cs := by
  have hnumber : cs.takeWhile Char.isDigit ++ places (cs.drop (cs.takeWhile Char.isDigit).length)
      <+: cs := by
    obtain ⟨rest, hrest⟩ := List.takeWhile_prefix Char.isDigit (l := cs)
    have hdrop := @List.drop_left _ (cs.takeWhile Char.isDigit) rest
    rw [hrest] at hdrop
    have hpart := (List.prefix_append_right_inj (cs.takeWhile Char.isDigit)).mpr
      (prefix_places rest)
    rwa [hrest, ← hdrop] at hpart
  by_cases hquote : isQuote c = true
  · rw [munch_quote hquote]
    exact prefix_quotedSpan c cs
  · rw [munch, if_neg hquote]
    dsimp only
    split_ifs
    all_goals first
      | exact List.nil_prefix
      | exact List.takeWhile_prefix _
      | exact hnumber

/-! ### all tokens -/

/-- the token ends before the rest of the text -/
theorem byteSize_munch (c : Char) (cs : List Char) :
    byteSize (c :: (munch c cs).extra) + byteSize (cs.drop (munch c cs).extra.length)
      = byteSize (c :: cs) := by
  obtain ⟨rest, hrest⟩ := prefix_extra c cs
  have hdrop := @List.drop_left _ (munch c cs).extra rest
  rw [hrest] at hdrop
  rw [hdrop, ← byteSize_append, List.cons_append, hrest]

end Lexeme

def Span.shift (n : ℕ) (span : Span) : Span := ⟨n + span.start, n + span.stop⟩

def Lexeme.shift (n : ℕ) (l : Lexeme) : Lexeme := ⟨l.token, l.span.shift n⟩

namespace FormulaError

/-- the text is no formula -/
inductive Syntactic : FormulaError → Prop
  | intro (span : Span) (reason : String) (expected : List String) :
      Syntactic (.malformed span reason expected)

/-- the place at which a text is no formula -/
def span : FormulaError → Span
  | malformed span _ _ => span
  | _ => ⟨0, 0⟩

def shift (n : ℕ) : FormulaError → FormulaError
  | malformed span reason expected => malformed (span.shift n) reason expected
  | e => e

theorem Syntactic.span_shift {e : FormulaError} (h : e.Syntactic) (n : ℕ) :
    (e.shift n).span = e.span.shift n := by
  cases h
  rfl

end FormulaError

namespace Lexeme

section
variable {start : ℕ} {c : Char} {cs : List Char}

theorem lexFrom_gap (h : isGap c = true) : lexFrom start (c :: cs) = lexFrom (start + 1) cs := by
  rw [lexFrom, if_pos h]

def stray (start : ℕ) (cs : List Char) : FormulaError :=
  .malformed ⟨start, start + byteSize cs⟩ (strayMessage cs) []

theorem span_stray (cs : List Char) : (stray start cs).span = ⟨start, start + byteSize cs⟩ := rfl

theorem lexFrom_stray (hgap : isGap c = false) (h : (munch c cs).token? = none) :
    lexFrom start (c :: cs) = .error (stray start (c :: (munch c cs).extra)) := by
  rw [lexFrom, if_neg (by rw [hgap]; decide)]
  dsimp only
  rw [h]
  rfl

theorem lexFrom_token {t : Token} (hgap : isGap c = false) (h : (munch c cs).token? = some t) :
    lexFrom start (c :: cs)
      = (lexFrom (start + byteSize (c :: (munch c cs).extra))
          (cs.drop (munch c cs).extra.length)).map
            (⟨t, ⟨start, start + byteSize (c :: (munch c cs).extra)⟩⟩ :: ·) := by
  rw [lexFrom, if_neg (by rw [hgap]; decide)]
  dsimp only
  rw [h]

/-- reading tokens goes on behind a gap, stops at what is no token, or goes on behind a token -/
theorem lexFrom_induction {P : ℕ → List Char → Prop} (nil : ∀ start, P start [])
    (gap : ∀ start c cs, isGap c = true → P (start + 1) cs → P start (c :: cs))
    (stray : ∀ start c cs, isGap c = false → (munch c cs).token? = none → P start (c :: cs))
    (token : ∀ start c cs t, isGap c = false → (munch c cs).token? = some t →
      P (start + byteSize (c :: (munch c cs).extra)) (cs.drop (munch c cs).extra.length) →
      P start (c :: cs)) (start : ℕ) (cs : List Char) : P start cs := by
  induction hlength : cs.length using Nat.strong_induction_on generalizing start cs with
  | _ n ih =>
    cases cs with
    | nil => exact nil start
    | cons c cs =>
      rw [List.length_cons] at hlength
      cases hgap : isGap c with
      | true => exact gap start c cs hgap (ih cs.length (by omega) _ cs rfl)
      | false =>
        cases htoken : (munch c cs).token? with
        | none => exact stray start c cs hgap htoken
        | some t =>
          refine token start c cs t hgap htoken (ih _ ?_ _ _ rfl)
          rw [List.length_drop]
          omega

end

theorem lexFrom_shift (n start : ℕ) (cs : List Char) :
    lexFrom (n + start) cs
      = ((lexFrom start cs).map (List.map (shift n))).mapError (FormulaError.shift n) := by
  induction start, cs using lexFrom_induction with
  | nil start => rw [lexFrom, lexFrom]; rfl
  | gap start c cs hgap ih => rw [lexFrom_gap hgap, lexFrom_gap hgap, Nat.add_assoc, ih]
  | stray start c cs hgap hnone =>
    rw [lexFrom_stray hgap hnone, lexFrom_stray hgap hnone, stray, stray, Nat.add_assoc]
    rfl
  | token start c cs t hgap hsome ih =>
    rw [lexFrom_token hgap hsome, lexFrom_token hgap hsome, Nat.add_assoc, ih]
    cases lexFrom (start + byteSize (c :: (munch c cs).extra))
      (cs.drop (munch c cs).extra.length) with
    | ok ls => simp [Except.map, Except.mapError, shift, Span.shift]
    | error e => rfl

theorem lexFrom_gaps {front : List Char} (h : ∀ c ∈ front, isGap c = true) (start : ℕ)
    (cs : List Char) : lexFrom start (front ++ cs) = lexFrom (start + front.length) cs := by
  induction front generalizing start with
  | nil => rfl
  | cons c front ih =>
    rw [List.cons_append, lexFrom_gap (h c List.mem_cons_self),
      ih (fun d hd => h d (List.mem_cons_of_mem c hd)), List.length_cons]
    congr 1
    omega

/-- the places of tokens lie inside the text, and so does that of an error -/
structure Inside (start stop : ℕ) (span : Span) : Prop where
  start_le : start ≤ span.start
  start_le_stop : span.start ≤ span.stop
  stop_le : span.stop ≤ stop

theorem lexFrom_error {start : ℕ} {cs : List Char} {e : FormulaError}
    (h : lexFrom start cs = .error e) :
    e.Syntactic ∧ Inside start (start + byteSize cs) e.span := by
  induction start, cs using lexFrom_induction with
  | nil start => rw [lexFrom] at h; cases h
  | gap start c cs hgap ih =>
    rw [lexFrom_gap hgap] at h
    obtain ⟨hsyntactic, hstart, hspan, hstop⟩ := ih h
    have hsize := utf8Size_of_isGap hgap
    refine ⟨hsyntactic, by omega, hspan, ?_⟩
    rw [byteSize_cons]
    omega
  | stray start c cs hgap hnone =>
    rw [lexFrom_stray hgap hnone] at h
    cases h
    have hsize := byteSize_munch c cs
    rw [span_stray]
    exact ⟨.intro _ _ _, Nat.le_refl _, Nat.le_add_right _ _, by dsimp only; omega⟩
  | token start c cs t hgap hsome ih =>
    rw [lexFrom_token hgap hsome] at h
    obtain ⟨hsyntactic, hstart, hspan, hstop⟩ := ih (error_of_map h)
    have hsize := byteSize_munch c cs
    exact ⟨hsyntactic, by omega, hspan, by omega⟩

theorem lexFrom_ok {start : ℕ} {cs : List Char} {ls : List Lexeme} (h : lexFrom start cs = .ok ls) :
    ∀ l ∈ ls, Inside start (start + byteSize cs) l.span := by
  induction start, cs using lexFrom_induction generalizing ls with
  | nil start =>
    rw [lexFrom] at h
    cases h
    exact fun l hl => absurd hl List.not_mem_nil
  | gap start c cs hgap ih =>
    rw [lexFrom_gap hgap] at h
    intro l hl
    obtain ⟨hstart, hspan, hstop⟩ := ih h l hl
    have hsize := utf8Size_of_isGap hgap
    refine ⟨by omega, hspan, ?_⟩
    rw [byteSize_cons]
    omega
  | stray start c cs hgap hnone =>
    rw [lexFrom_stray hgap hnone] at h
    cases h
  | token start c cs t hgap hsome ih =>
    rw [lexFrom_token hgap hsome] at h
    obtain ⟨rest, hrest, rfl⟩ := ok_of_map h
    have hsize := byteSize_munch c cs
    intro l hl
    rcases List.mem_cons.mp hl with rfl | hl
    · exact ⟨Nat.le_refl _, Nat.le_add_right _ _, by dsimp only; omega⟩
    · obtain ⟨hstart, hspan, hstop⟩ := ih hrest l hl
      exact ⟨by omega, hspan, by omega⟩

/-! ### tokens, with blanks behind the text -/

/-- nothing is read of blanks if they are gaps; otherwise the first other one is in the way -/
theorem lexFrom_blanks {back : List Char} (hback : ∀ c ∈ back, isBlank c = true) (start : ℕ) :
    (∀ c ∈ back, isGap c = true) ∧ lexFrom start back = .ok [] ∨
      (∃ c ∈ back, isGap c = false) ∧ ∃ e, lexFrom start back = .error e ∧ start < e.span.stop := by
  induction back generalizing start with
  | nil => exact .inl ⟨fun c hc => absurd hc List.not_mem_nil, by rw [lexFrom]⟩
  | cons c back ih =>
    cases hgap : isGap c with
    | true =>
      rw [lexFrom_gap hgap]
      rcases ih (fun d hd => hback d (List.mem_cons_of_mem c hd)) (start + 1) with
        ⟨hgaps, hlex⟩ | ⟨⟨d, hd, hother⟩, e, hlex, hplace⟩
      · exact .inl ⟨List.forall_mem_cons.mpr ⟨hgap, hgaps⟩, hlex⟩
      · exact .inr ⟨⟨d, List.mem_cons_of_mem c hd, hother⟩, e, hlex, by omega⟩
    | false =>
      have hmunch := munch_of_isBlank (hback c List.mem_cons_self) back
      have hstray : lexFrom start (c :: back) = .error (stray start (c :: (munch c back).extra)) :=
        lexFrom_stray hgap (congrArg Munch.token? hmunch)
      refine .inr ⟨⟨c, List.mem_cons_self, hgap⟩, _, hstray, ?_⟩
      rw [span_stray]
      exact Nat.lt_add_of_pos_right (byteSize_pos (List.cons_ne_nil _ _))

section
variable {back : List Char} (hback : ∀ c ∈ back, isBlank c = true)
include hback

/-- a token is read off a text as it is with blanks behind the text -/
theorem lexFrom_append_of_token {start : ℕ} {c : Char} {cs : List Char} {t : Token}
    (hgap : isGap c = false) (hsome : (munch c cs).token? = some t) :
    lexFrom start (c :: cs ++ back)
      = (lexFrom (start + byteSize (c :: (munch c cs).extra))
          (cs.drop (munch c cs).extra.length ++ back)).map
            (⟨t, ⟨start, start + byteSize (c :: (munch c cs).extra)⟩⟩ :: ·) := by
  obtain ⟨htoken, hextra⟩ := munch_append hback c cs
  have hsame : (munch c (cs ++ back)).extra = (munch c cs).extra := by
    refine hextra.resolve_right fun hnone => ?_
    rw [hsome] at hnone
    cases hnone.1
  have hlength : (munch c cs).extra.length ≤ cs.length := (prefix_extra c cs).length_le
  rw [List.cons_append, lexFrom_token hgap (htoken.trans hsome), hsame,
    List.drop_append_of_le_length hlength]

/-- the tokens of a text are read first, and then the blanks behind it -/
theorem lexFrom_append_of_ok {start : ℕ} {cs : List Char} {ls : List Lexeme}
    (h : lexFrom start cs = .ok ls) :
    lexFrom start (cs ++ back) = (lexFrom (start + byteSize cs) back).map (ls ++ ·) := by
  induction start, cs using lexFrom_induction generalizing ls with
  | nil start =>
    rw [lexFrom] at h
    cases h
    cases hlex : lexFrom start back <;> simp [byteSize, hlex, Except.map]
  | gap start c cs hgap ih =>
    rw [lexFrom_gap hgap] at h
    rw [List.cons_append, lexFrom_gap hgap, ih h, byteSize_cons, utf8Size_of_isGap hgap,
      Nat.add_assoc]
  | stray start c cs hgap hnone =>
    rw [lexFrom_stray hgap hnone] at h
    cases h
  | token start c cs t hgap hsome ih =>
    rw [lexFrom_token hgap hsome] at h
    obtain ⟨rest, hrest, rfl⟩ := ok_of_map h
    have hsize : start + byteSize (c :: (munch c cs).extra)
        + byteSize (cs.drop (munch c cs).extra.length) = start + byteSize (c :: cs) := by
      rw [Nat.add_assoc, byteSize_munch]
    rw [lexFrom_append_of_token hback hgap hsome, ih hrest, hsize]
    cases lexFrom (start + byteSize (c :: cs)) back <;> rfl

/-- what is in the way in a text is in the way with blanks behind it, at the same place; if it was a
text without its closing quote, it may now reach to the end of the blanks -/
theorem lexFrom_append_of_error {start : ℕ} {cs : List Char} {e : FormulaError}
    (h : lexFrom start cs = .error e) :
    ∃ e', lexFrom start (cs ++ back) = .error e' ∧ (e' = e ∨
      e'.span.start = e.span.start ∧ e'.span.stop = start + byteSize (cs ++ back)) := by
  induction start, cs using lexFrom_induction with
  | nil start =>
    rw [lexFrom] at h
    cases h
  | gap start c cs hgap ih =>
    rw [lexFrom_gap hgap] at h
    obtain ⟨e', hlex, hplace⟩ := ih h
    rw [List.cons_append, lexFrom_gap hgap, byteSize_cons, utf8Size_of_isGap hgap, ← Nat.add_assoc]
    exact ⟨e', hlex, hplace⟩
  | stray start c cs hgap hnone =>
    rw [lexFrom_stray hgap hnone] at h
    cases h
    obtain ⟨htoken, hextra⟩ := munch_append hback c cs
    refine ⟨_, by rw [List.cons_append, lexFrom_stray hgap (htoken.trans hnone)], ?_⟩
    refine hextra.imp (fun hsame => by rw [hsame]) fun hall => ?_
    rw [span_stray, span_stray, hall.2]
    exact ⟨rfl, rfl⟩
  | token start c cs t hgap hsome ih =>
    rw [lexFrom_token hgap hsome] at h
    obtain ⟨e', hlex, hplace⟩ := ih (error_of_map h)
    have hsize : start + byteSize (c :: (munch c cs).extra)
        + byteSize (cs.drop (munch c cs).extra.length ++ back)
          = start + byteSize (c :: cs ++ back) := by
      rw [byteSize_append, byteSize_append, ← byteSize_munch c cs]
      omega
    rw [hsize] at hplace
    refine ⟨e', ?_, hplace⟩
    rw [lexFrom_append_of_token hback hgap hsome, hlex]
    rfl

end

end Lexeme

end Figures
