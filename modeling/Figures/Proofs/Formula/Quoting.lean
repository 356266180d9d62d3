import Figures.Formula.Value
import Figures.Proofs.Formula.Lexicon
import Figures.Proofs.Formula.Margins

/-!
# Formulas in texts, and texts as formulas

* `Formula.braced`           a formula's text in double braces
* `Scope.resolve_braced`     a text in braces is resolved as the formula in them
* `Json.Literal`             a value that is not a text in braces; it is resolved as itself
* `Formula.quote q s`        the text `s` between two quotes `q`
* `Lexeme.unescape_quoted`   what is between the quotes stands for the text
* `Lexeme.lexFrom_quote`     a quoted text is one token, whatever stands behind it
* `Formula.read_quote`       every text is the value of a formula

Only backslashes and the quote itself are written with a backslash in front; the other quote and
line ends stand as they are.
-/

namespace Figures

/-! ### formulas in double braces -/

namespace Text

theorem dropHead?_append (head s : String) : dropHead? head (head ++ s) = some s := by
  simp [dropHead?, String.toList_append]

theorem dropTail?_append (s tail : String) : dropTail? tail (s ++ tail) = some s := by
  simp [dropTail?, String.toList_append]

end Text

namespace Formula

/-- a formula's text in double braces -/
def braced (source : String) : String := openingBraces ++ (source ++ closingBraces)

theorem body?_braced {source : String} (h : source ≠ "") : body? (braced source) = some source := by
  rw [body?, braced, Text.dropHead?_append, Option.bind_eq_bind, Option.bind_some,
    Text.dropTail?_append, Option.bind_some]
  exact if_neg (by simpa using h)

end Formula

section
variable [Platform] {scope : Scope}

theorem Scope.resolve_braced {source : String} (h : source ≠ "") :
    scope.resolve (.text (Formula.braced source)) = scope.evaluate source := by
  rw [resolve, Formula.body?_braced h]

theorem Scope.ne_empty_of_evaluate {source : String} {v : Json}
    (h : scope.evaluate source = .ok v) :
    source ≠ "" := by
  rintro rfl
  have hlex : Lexeme.lex (Text.trim "") = .ok [] := by
    rw [Lexeme.lex, show (Text.trim "").toList = [] by decide, Lexeme.lexFrom]
  rw [evaluate, Formula.read_eq_run, hlex] at h
  cases h

/-- a value that is not a text in double braces -/
def Json.Literal (v : Json) : Prop := ∀ s, v = .text s → Formula.body? s = none

theorem Scope.resolve_literal {v : Json} (h : v.Literal) : scope.resolve v = .ok v := by
  cases v with
  | text s => rw [resolve, h s rfl]
  | null | boolean | integer | real | list | object => rfl

end

/-! ### texts in quotes -/

namespace Formula

def quoteChar (q c : Char) : List Char := if c = '\\' ∨ c = q then ['\\', c] else [c]

def quote (q : Char) (s : String) : String :=
  String.ofList (q :: (s.toList.flatMap (quoteChar q) ++ [q]))

end Formula

open Formula (quote quoteChar)

namespace Lexeme

variable {q : Char} (hq : isQuote q = true)
include hq

/-- what a backslash is written in front of is no line end -/
theorem ne_newline_of_escaped {c : Char} (h : c = '\\' ∨ c = q) : c ≠ '\n' := by
  rcases h with rfl | rfl
  · decide
  · rintro rfl
    exact absurd hq (by decide)

theorem quoted_flatMap (cs : List Char) : Quoted q (cs.flatMap (quoteChar q)) := by
  induction cs with
  | nil => exact .nil
  | cons c cs ih =>
    rw [List.flatMap_cons, quoteChar]
    by_cases hc : c = '\\' ∨ c = q
    · rw [if_pos hc]
      exact .escape c _ (ne_newline_of_escaped hq hc) ih
    · rw [if_neg hc]
      rw [not_or] at hc
      exact .plain c _ hc.2 hc.1 ih

theorem unescape_quoted (cs : List Char) : unescape (cs.flatMap (quoteChar q)) = cs := by
  induction cs with
  | nil => rfl
  | cons c cs ih =>
    rw [List.flatMap_cons, quoteChar]
    by_cases hc : c = '\\' ∨ c = q
    · have hdropped : c = '\\' ∨ isQuote c = true := by
        rcases hc with rfl | rfl
        · exact .inl rfl
        · exact .inr hq
      rw [if_pos hc, List.cons_append, List.cons_append, List.nil_append, unescape,
        if_pos hdropped, ih]
    · rw [not_or] at hc
      rw [if_neg (not_or.mpr hc), List.singleton_append, unescape, ih]
      exact fun _ _ heq _ => hc.1 heq

/-- the closing quote ends the token, so nothing behind it matters -/
theorem munch_quoted (s : String) (rest : List Char) :
    munch q (s.toList.flatMap (quoteChar q) ++ q :: rest)
      = ⟨some (.text s), s.toList.flatMap (quoteChar q) ++ [q]⟩ := by
  have hspan := (quoted_flatMap hq s.toList).quotedSpan_append (slash_ne_of_isQuote hq) rest
  rw [munch_quote hq, hspan, List.dropLast_concat, unescape_quoted hq, String.ofList_toList]
  rfl

/-- a quoted text is one token, whatever stands behind it -/
theorem lexFrom_quote (s : String) (start : ℕ) (rest : List Char) :
    lexFrom start ((quote q s).toList ++ rest)
      = (lexFrom (start + (quote q s).utf8ByteSize) rest).map
          (⟨.text s, ⟨start, start + (quote q s).utf8ByteSize⟩⟩ :: ·) := by
  have hgap : isGap q = false := by
    simp only [isQuote, Bool.or_eq_true, beq_iff_eq] at hq
    rcases hq with rfl | rfl <;> rfl
  have hchars : (quote q s).toList = q :: (s.toList.flatMap (quoteChar q) ++ [q]) := by
    rw [quote, String.toList_ofList]
  have htext : (quote q s).toList ++ rest = q :: (s.toList.flatMap (quoteChar q) ++ q :: rest) := by
    rw [hchars, List.cons_append, List.append_assoc, List.singleton_append]
  have hmunch := munch_quoted hq s rest
  have hdrop : (s.toList.flatMap (quoteChar q) ++ q :: rest).drop
      (s.toList.flatMap (quoteChar q) ++ [q]).length = rest := by
    rw [List.append_cons _ q rest, List.drop_left]
  rw [htext, lexFrom_token hgap (by rw [hmunch]), hmunch]
  dsimp only
  rw [hdrop, ← hchars, ← Formula.utf8ByteSize_eq]

/-- the quotes are no blanks, so nothing is trimmed -/
theorem trim_quote (s : String) : Text.trim (quote q s) = quote q s := by
  have hblank : isBlank q = false := by
    simp only [isQuote, Bool.or_eq_true, beq_iff_eq] at hq
    rcases hq with rfl | rfl <;> decide
  refine Text.trim_of_ends (fun c hc => ?_) fun c hc => ?_
  · rw [quote, String.toList_ofList, List.head?_cons] at hc
    exact Option.some.inj hc ▸ hblank
  · rw [quote, String.toList_ofList, ← List.cons_append, List.getLast?_concat] at hc
    exact Option.some.inj hc ▸ hblank

end Lexeme

namespace Formula

/-- **every text is a formula**: between quotes `q`, with a backslash in front of each backslash and
each `q`, it is one token and is read as itself, so in braces it stands for itself in every scope -/
theorem read_quote {q : Char} (hq : q = '\x22' ∨ q = '\x27') (s : String) :
    Lexeme.lex (quote q s) = .ok [⟨.text s, ⟨0, (quote q s).utf8ByteSize⟩⟩] ∧
    read (quote q s) = .ok (.text s) ∧
    ∀ scope : Scope, scope.resolve (.text (braced (quote q s))) = .ok (.text s) := by
  have hquote : Lexeme.isQuote q = true := by rcases hq with rfl | rfl <;> rfl
  have hlex : Lexeme.lex (quote q s) = .ok [⟨.text s, ⟨0, (quote q s).utf8ByteSize⟩⟩] := by
    have htoken := Lexeme.lexFrom_quote hquote s 0 []
    rwa [List.append_nil, Nat.zero_add, Lexeme.lexFrom] at htoken
  have hread : read (quote q s) = .ok (.text s) := by
    rw [read_eq_run, hlex]
    rfl
  have hne : quote q s ≠ "" := by
    intro h
    have hlength := congrArg (fun t => t.toList.length) h
    simp [quote] at hlength
  refine ⟨hlex, hread, fun scope => ?_⟩
  rw [Scope.resolve_braced hne, Scope.evaluate, Lexeme.trim_quote hquote, hread]
  rfl

/-- both quotes, a line end, a character of two bytes, and backslashes in front of a quote and at
the end -/
theorem read_quote_mixed :
    read (quote '\x27' "it's \"é\"\n\\\\' \\") = .ok (.text "it's \"é\"\n\\\\' \\") :=
  (read_quote (.inr rfl) _).2.1

/-- what is written for a quote behind a backslash -/
example : quote '\x22' "\\\"" = "\"\\\\\\\"\"" := by decide

end Formula

end Figures
