import Figures.Proofs.Formula.Steps
import Figures.Proofs.Json.Codec

/-!
# Values without parts, and their texts

* `readNumber_append`      a number ends where an entry ends
* `readNumber_toString`    a whole number of 64 bits is read from its digits
* `readText_escaped`       a text is read from its escaped form
* `Survives x`             the double `x` is read from its text; this is not so for all doubles
* `single_scalar`          a value without parts is read from its text

What stands behind a value is either nothing or the end of an entry: `Closes`.
-/

namespace Figures

namespace Lexeme

theorem span_append_of_stops {p : Char → Bool} {rest : List Char} (hrest : Stops p rest)
    (cs : List Char) : (cs ++ rest).takeWhile p = cs.takeWhile p ∧
      (cs ++ rest).dropWhile p = cs.dropWhile p ++ rest := by
  induction cs with
  | nil =>
    cases rest with
    | nil => exact ⟨rfl, rfl⟩
    | cons c rest =>
      have hc : ¬p c = true := by simp [hrest c rfl]
      exact ⟨List.takeWhile_cons_of_neg hc, List.dropWhile_cons_of_neg hc⟩
  | cons c cs ih =>
    by_cases hc : p c = true
    · simp [hc, ih]
    · simp [hc]

end Lexeme

namespace Document

/-- what stands behind a value: nothing, or the end of an entry -/
def Closes (rest : List Char) : Prop := ∀ c ∈ rest.head?, c = ',' ∨ c = ']' ∨ c = '\x7d'

theorem Closes.stops {p : Char → Bool} {rest : List Char} (h : Closes rest)
    (hcomma : p ',' = false) (hlist : p ']' = false) (hobject : p '\x7d' = false) :
    Lexeme.Stops p rest := by
  intro c hc
  rcases h c hc with rfl | rfl | rfl
  exacts [hcomma, hlist, hobject]

section
variable {rest : List Char} {negative : Bool} {doc : Document}

theorem splitSign_append (hrest : Closes rest) (cs : List Char) :
    splitSign (cs ++ rest) = ((splitSign cs).1, (splitSign cs).2 ++ rest) := by
  cases cs with
  | nil =>
    cases rest with
    | nil => rfl
    | cons c rest => rcases hrest c rfl with rfl | rfl | rfl <;> rfl
  | cons c cs =>
    rw [List.cons_append, splitSign.eq_def, splitSign.eq_def]
    split <;> simp_all

theorem withPower_append {n : ℕ} {e : ℤ} {cs : List Char} (hrest : Closes rest)
    (h : withPower negative n e cs = .ok (doc, [])) :
    withPower negative n e (cs ++ rest) = .ok (doc, rest) := by
  cases cs with
  | nil =>
    cases h
    cases rest with
    | nil => rfl
    | cons c rest => rcases hrest c rfl with rfl | rfl | rfl <;> rfl
  | cons c cs =>
    obtain ⟨htake, hdrop⟩ := Lexeme.span_append_of_stops
      (hrest.stops (p := Char.isDigit) (by decide) (by decide) (by decide)) (splitSign cs).2
    rw [List.cons_append]
    simp only [withPower, splitSign_append hrest cs, htake, hdrop] at h ⊢
    split_ifs at h ⊢ <;> simp_all

theorem withPlaces_cons {ds cs : List Char} {c : Char} (hc : c ≠ '.') :
    withPlaces negative ds (c :: cs) =
      if c = 'e' ∨ c = 'E' ∨ (!(significand 0 ds).2.isEmpty) = true then
        withPower negative (significand 0 ds).1 (significand 0 ds).2.length (c :: cs)
      else .ok (ofWhole negative (significand 0 ds).1, c :: cs) := by
  rw [withPlaces.eq_def]
  dsimp only
  split
  next heq => exact absurd (List.cons.inj heq).1 hc
  next heq => cases heq; rfl
  next heq => cases heq

theorem withPlaces_append {ds cs : List Char} (hrest : Closes rest)
    (h : withPlaces negative ds cs = .ok (doc, [])) :
    withPlaces negative ds (cs ++ rest) = .ok (doc, rest) := by
  have hdigit := hrest.stops (p := Char.isDigit) (by decide) (by decide) (by decide)
  cases cs with
  | nil =>
    cases rest with
    | nil => exact h
    | cons c rest =>
      have hc : c ≠ '.' ∧ c ≠ 'e' ∧ c ≠ 'E' := by
        rcases hrest c rfl with rfl | rfl | rfl <;> decide
      rw [List.nil_append, withPlaces_cons hc.1]
      simp only [withPlaces, hc.2, false_or] at h ⊢
      by_cases hleft : (significand 0 ds).2.isEmpty = true
      · rw [if_pos hleft] at h
        rw [if_neg (by simp [hleft])]
        cases h
        rfl
      · rw [if_neg hleft] at h
        rw [if_pos (by simp [hleft])]
        exact withPower_append hrest h
  | cons c cs =>
    by_cases hc : c = '.'
    · subst hc
      obtain ⟨htake, hdrop⟩ := Lexeme.span_append_of_stops hdigit cs
      simp only [List.cons_append, withPlaces, htake, hdrop] at h ⊢
      split_ifs at h ⊢
      exact withPower_append hrest h
    · rw [withPlaces_cons hc] at h
      rw [List.cons_append, withPlaces_cons hc]
      split_ifs at h ⊢
      · exact withPower_append hrest h
      · cases h

/-- a number behind its sign -/
def unsigned (negative : Bool) (body : List Char) : Except Fault (Document × List Char) :=
  match body.takeWhile Char.isDigit with
  | [] => .error (if body.isEmpty then .ended else .malformed)
  | '0' :: _ :: _ => .error .malformed
  | ds => withPlaces negative ds (body.dropWhile Char.isDigit)

theorem readNumber_minus (body : List Char) : readNumber ('-' :: body) = unsigned true body := rfl

theorem readNumber_of_ne {cs : List Char} (h : ∀ more, cs ≠ '-' :: more) :
    readNumber cs = unsigned false cs := by
  rw [readNumber]
  · rfl
  · exact h

/-- the digits before the point: at least one, and a zero stands alone -/
structure Leads (ds : List Char) : Prop where
  ne_nil : ds ≠ []
  alone : ∀ d more, ds ≠ '0' :: d :: more

theorem unsigned_of_leads {body ds cs : List Char} (hleads : Leads ds)
    (hds : body.takeWhile Char.isDigit = ds) (hcs : body.dropWhile Char.isDigit = cs) :
    unsigned negative body = withPlaces negative ds cs := by
  rw [unsigned, hds, hcs]
  split
  next => exact absurd rfl hleads.ne_nil
  next => exact absurd rfl (hleads.alone _ _)
  next => rfl

theorem leads_of_unsigned {body : List Char} {r : Document × List Char}
    (h : unsigned negative body = .ok r) : Leads (body.takeWhile Char.isDigit) := by
  rw [unsigned] at h
  split at h
  next => cases h
  next => cases h
  next hnil halone => exact ⟨hnil, halone⟩

theorem unsigned_append {body : List Char} (hrest : Closes rest)
    (h : unsigned negative body = .ok (doc, [])) :
    unsigned negative (body ++ rest) = .ok (doc, rest) := by
  have hleads := leads_of_unsigned h
  obtain ⟨htake, hdrop⟩ := Lexeme.span_append_of_stops
    (hrest.stops (p := Char.isDigit) (by decide) (by decide) (by decide)) body
  rw [unsigned_of_leads hleads rfl rfl] at h
  rw [unsigned_of_leads hleads htake hdrop]
  exact withPlaces_append hrest h

theorem readNumber_append {cs : List Char} (hrest : Closes rest)
    (h : readNumber cs = .ok (doc, [])) : readNumber (cs ++ rest) = .ok (doc, rest) := by
  by_cases hcs : ∃ body, cs = '-' :: body
  · obtain ⟨body, rfl⟩ := hcs
    exact unsigned_append hrest h
  · have hne : ∀ more, cs ≠ '-' :: more := fun more heq => hcs ⟨more, heq⟩
    rw [readNumber_of_ne hne] at h
    rw [readNumber_of_ne]
    · exact unsigned_append hrest h
    · intro more heq
      cases cs with
      | nil => cases h
      | cons c cs => exact hne cs (congrArg (· :: cs) (List.cons.inj heq).1)

end

/-! ### whole numbers -/

theorem leads_repr (n : ℕ) : Leads (Nat.repr n).toList := by
  refine ⟨repr_ne_nil n, fun d more heq => ?_⟩
  rw [Nat.toList_repr] at heq
  by_cases hn : n = 0
  · subst hn
    cases heq
  · exact head?_toDigits hn (congrArg List.head? heq)

theorem le_digitsValue (acc : ℕ) (ds : List Char) : acc ≤ digitsValue acc ds := by
  induction ds generalizing acc with
  | nil => exact le_rfl
  | cons d ds ih => exact le_trans (by omega) (ih (10 * acc + (d.toNat - '0'.toNat)))

theorem significand_eq {acc : ℕ} {ds : List Char} (h : digitsValue acc ds ≤ word64) :
    significand acc ds = (digitsValue acc ds, []) := by
  induction ds generalizing acc with
  | nil => rfl
  | cons d ds ih =>
    rw [significand, if_pos (le_trans (le_digitsValue _ ds) h)]
    exact ih h

theorem withPlaces_repr {n : ℕ} (hn : n ≤ word64) (negative : Bool) :
    withPlaces negative (Nat.repr n).toList [] = .ok (ofWhole negative n, []) := by
  have hsignificand : significand 0 (Nat.repr n).toList = (n, []) := by
    rw [significand_eq (by rwa [digitsValue_repr]), digitsValue_repr]
  rw [withPlaces, hsignificand]
  rfl

theorem readNumber_toString {n : ℤ} (hlo : -(signBit : ℤ) ≤ n) (hhi : n ≤ word64) :
    readNumber (toString n).toList = .ok (.integer n, []) := by
  have hunsigned (m : ℕ) (negative : Bool) (hm : m ≤ word64) :
      unsigned negative (Nat.repr m).toList = .ok (ofWhole negative m, []) := by
    have hdigits := List.all_eq_true.mp (repr_digits m)
    rw [unsigned_of_leads (leads_repr m) (List.takeWhile_eq_self_iff.mpr hdigits)
      (List.dropWhile_eq_nil_iff.mpr hdigits)]
    exact withPlaces_repr hm negative
  cases n with
  | ofNat m =>
    have hne : ∀ more, (Nat.repr m).toList ≠ '-' :: more := fun more heq => by
      have := repr_digits m
      rw [heq] at this
      exact absurd this (by simp)
    show readNumber (Nat.repr m).toList = _
    rw [readNumber_of_ne hne, hunsigned m false (Int.ofNat_le.mp hhi)]
    rfl
  | negSucc m =>
    have hm : m + 1 ≤ signBit := by omega
    have htext : (toString (Int.negSucc m)).toList = '-' :: (Nat.repr (m + 1)).toList := by
      show ("-" ++ Nat.repr (m + 1)).toList = _
      rw [String.toList_append]
      rfl
    rw [htext, readNumber_minus, hunsigned (m + 1) true (le_trans hm (by decide)), ofWhole]
    simp only [Bool.not_true, Bool.false_eq_true, if_false]
    rw [if_neg (by omega)]
    rfl

/-! ### texts -/

def escaped (cs : List Char) : List Char := cs.flatMap fun c => (Json.escapeChar c).toList

theorem toList_quote (s : String) :
    (Json.quote s).toList = '\x22' :: (escaped s.toList ++ ['\x22']) := by
  have hfold (cs : List Char) (acc : String) :
      (cs.foldl (fun acc c => acc ++ Json.escapeChar c) acc).toList = acc.toList ++ escaped cs := by
    induction cs generalizing acc with
    | nil => exact (List.append_nil _).symm
    | cons c cs ih =>
      rw [List.foldl_cons, ih, String.toList_append, escaped, escaped, List.flatMap_cons,
        List.append_assoc]
  rw [Json.quote, String.toList_append, String.toList_append, hfold]
  rfl

section
variable {acc rest : List Char}

theorem readText_letter {c e : Char} (h : escape? e = some c) :
    readText (some acc) ('\\' :: e :: rest) = readText (some (c :: acc)) rest := by
  have hu : e ≠ 'u' := by
    rintro rfl
    cases h
  rw [readText, h]
  · rfl
  all_goals intros; contradiction

theorem readText_code {a b c d : Char} {n : ℕ} (h : hexValue? [a, b, c, d] = some n)
    (hn : n < 0xD800) : readText (some acc) ('\\' :: 'u' :: a :: b :: c :: d :: rest) =
      readText (some (Char.ofNat n :: acc)) rest := by
  by_cases hmore : ∃ e f g i more, rest = '\\' :: 'u' :: e :: f :: g :: i :: more
  · obtain ⟨e, f, g, i, more, rfl⟩ := hmore
    rw [readText, h]
    dsimp only
    rw [if_neg (by omega), if_neg (by omega)]
    rfl
  · rw [readText, h]
    · dsimp only
      rw [if_neg (by omega)]
      rfl
    · exact fun e f g i more heq => hmore ⟨e, f, g, i, more, heq⟩

theorem readText_plain {c : Char} (hquote : c ≠ '\x22') (hescape : c ≠ '\\')
    (hcontrol : ¬c.toNat < 32) :
    readText (some acc) (c :: rest) = readText (some (c :: acc)) rest := by
  rw [readText, if_neg hcontrol]
  · rfl
  · exact hquote
  all_goals intros; contradiction
theorem hexValue?_hexByte {n : ℕ} (hn : n < 32) :
    hexValue? ('0' :: '0' :: (Json.hexByte n).toList) = some n := by
  have hall : ∀ n < 32, hexValue? ['0', '0', Nat.digitChar (n / 16 % 16), Nat.digitChar (n % 16)]
      = some n := by decide
  rw [Json.hexByte, String.toList_ofList]
  exact hall n hn

theorem readText_escapeChar (c : Char) :
    readText (some acc) ((Json.escapeChar c).toList ++ rest) = readText (some (c :: acc)) rest := by
  have hcode {n : ℕ} (hn : c.toNat = n) : Char.ofNat n = c := by rw [← hn, Char.ofNat_toNat]
  rw [Json.escapeChar]
  split_ifs with hquote hescape hline hreturn htab hback hfeed hcontrol
  · exact readText_letter (by rw [hquote]; rfl)
  · exact readText_letter (by rw [hescape]; rfl)
  · exact readText_letter (by rw [hline]; rfl)
  · exact readText_letter (by rw [hreturn]; rfl)
  · exact readText_letter (by rw [htab]; rfl)
  · exact readText_letter (by rw [← hcode hback]; rfl)
  · exact readText_letter (by rw [← hcode hfeed]; rfl)
  · have hvalue := hexValue?_hexByte hcontrol
    have htext : ("\\u00" ++ Json.hexByte c.toNat).toList
        = ['\\', 'u', '0', '0'] ++ (Json.hexByte c.toNat).toList := String.toList_append
    rw [Json.hexByte, String.toList_ofList] at hvalue htext
    rw [Json.hexByte, htext]
    exact (readText_code hvalue (by omega)).trans (by rw [hcode rfl]; rfl)
  · rw [String.toList_ofList]
    exact readText_plain hquote hescape hcontrol

end

theorem readText_escaped (cs acc rest : List Char) :
    readText (some acc) (escaped cs ++ '\x22' :: rest) =
      .ok (some (String.ofList (acc.reverse ++ cs)), rest) := by
  induction cs generalizing acc with
  | nil =>
    rw [List.append_nil]
    rfl
  | cons c cs ih =>
    rw [escaped, List.flatMap_cons, List.append_assoc, readText_escapeChar, ← escaped, ih,
      List.reverse_cons, List.append_assoc]
    rfl

/-! ### values without parts -/

/-- what a value starts with: no blank, and nothing that ends a list -/
structure Opens (c : Char) : Prop where
  notSpace : isSpace c = false
  notEnd : c ≠ ']'

/-- the double is read from its text -/
def Survives (x : Float) : Prop :=
  ∃ s, precise? x = some s ∧ readNumber s.toList = .ok (.real x, [])

theorem survives_of_parts {x : Float} {s : String} {n : ℕ} {e : ℤ} (htext : precise? x = some s)
    (hread : readNumber s.toList = .ok (ofParts false n e, []))
    (hscale : scale (Binary.nearest n 0) e 4 = some x) : Survives x := by
  refine ⟨s, htext, ?_⟩
  rw [hread, ofParts, hscale]
  rfl

/-- a text starts with `c` and is read as the value `doc` without parts -/
structure Single (c : Char) (cs : List Char) (doc : Document) : Prop where
  opens : Opens c
  notList : c ≠ '['
  notObject : c ≠ '\x7b'
  read : ∀ rest, Closes rest → readScalar c (cs ++ rest) = .ok (doc, rest)

theorem single_number {text : List Char} {doc : Document} (h : readNumber text = .ok (doc, [])) :
    ∃ c cs, text = c :: cs ∧ Single c cs doc := by
  cases text with
  | nil => cases h
  | cons c cs =>
    have hc : c = '-' ∨ c.isDigit = true := by
      by_cases hsign : c = '-'
      · exact .inl hsign
      · rw [readNumber_of_ne fun more heq => hsign (List.cons.inj heq).1] at h
        by_contra hdigit
        have hnil : (c :: cs).takeWhile Char.isDigit = [] :=
          List.takeWhile_cons_of_neg fun hd => hdigit (.inr hd)
        exact (leads_of_unsigned h).ne_nil hnil
    have hne {d : Char} (hd : d ≠ '-' ∧ d.isDigit = false) : c ≠ d := by
      rintro rfl
      exact hc.elim hd.1 (by simp [hd.2])
    refine ⟨c, cs, rfl, ⟨?_, hne (by decide)⟩, hne (by decide), hne (by decide),
      fun rest hrest => ?_⟩
    · simp [isSpace, hne (d := ' ') (by decide), hne (d := '\t') (by decide),
        hne (d := '\n') (by decide), hne (d := '\r') (by decide)]
    · rw [readScalar, if_neg (hne (by decide)), if_neg (hne (by decide)), if_neg (hne (by decide)),
        if_neg (hne (by decide)), if_pos hc]
      exact readNumber_append hrest h

theorem single_text (s : String) :
    ∃ c cs, (Json.quote s).toList = c :: cs ∧ Single c cs (.text s) := by
  refine ⟨'\x22', _, toList_quote s, ⟨rfl, by decide⟩, by decide, by decide, fun rest _ => ?_⟩
  rw [readScalar, if_pos rfl, List.append_assoc, List.singleton_append, readText_escaped,
    List.reverse_nil, List.nil_append, String.ofList_toList]
  rfl

theorem single_scalar {v : Json} (hlist : ∀ items, v ≠ .list items)
    (hobject : ∀ members, v ≠ .object members) (hproper : (ofJson v).Proper)
    (hreal : ∀ x, v = .real x → Survives x) :
    ∃ c cs, v.compact.toList = c :: cs ∧ Single c cs (ofJson v) := by
  have hword {c : Char} (cs : List Char) {doc : Document} (hspace : isSpace c = false)
      (hopens : c ≠ ']' ∧ c ≠ '[' ∧ c ≠ '\x7b')
      (hread : ∀ rest, readScalar c (cs ++ rest) = .ok (doc, rest)) : Single c cs doc :=
    ⟨⟨hspace, hopens.1⟩, hopens.2.1, hopens.2.2, fun rest _ => hread rest⟩
  cases v with
  | list items => exact absurd rfl (hlist items)
  | object members => exact absurd rfl (hobject members)
  | null => exact ⟨_, _, rfl, hword _ rfl (by decide) fun rest => rfl⟩
  | boolean b =>
    cases b with
    | false => exact ⟨_, _, rfl, hword _ rfl (by decide) fun rest => rfl⟩
    | true => exact ⟨_, _, rfl, hword _ rfl (by decide) fun rest => rfl⟩
  | integer n => exact single_number (readNumber_toString hproper.1 hproper.2)
  | real x =>
    obtain ⟨s, hs, hread⟩ := hreal x rfl
    have htext : (Json.real x).compact = s := by
      show (precise? x).getD "null" = s
      rw [hs]
      rfl
    rw [htext]
    exact single_number hread
  | text s => exact single_text s

end Document

end Figures
