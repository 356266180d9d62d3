import Figures.Markup.Document
import Mathlib.Data.List.Basic
import Mathlib.Tactic.SplitIfs

/-!
# Escaped text

* `passes rs cs`         characters replaced one after the other
* `passes_singleton`     what is inserted stays, if no later replacement is about one of its
                         characters
* `toList_escape`        so the replacements come to one, character by character
* `entities`             the five entities that stand for special characters
* `Referenced cs`        every ampersand among the characters starts one of them
* `escapeChar_form`      an escaped character is an entity, or a character that is not special
* `referenced_escape`    every ampersand of an escaped text starts an entity
* `not_mem_escape`       no other special character is left in an escaped text
* `unescape`             the text that escaped characters stand for
* `unescape_escape`      an escaped text stands for the text
-/

namespace Figures.Markup

def entities : List (List Char) :=
  ["&amp;".toList, "&lt;".toList, "&gt;".toList, "&quot;".toList, "&apos;".toList]

/-- the characters that mean something in markup -/
def special : List Char := ['&', '<', '>', '\x22', '\x27']

/-- every ampersand starts an entity -/
def Referenced (cs : List Char) : Prop :=
  ∀ before after, cs = before ++ '&' :: after → ∃ e ∈ entities, e <+: '&' :: after

/-- characters without markup: no tag starts here, and every ampersand starts an entity -/
def Clean (cs : List Char) : Prop := '<' ∉ cs ∧ Referenced cs

/-! ### references -/

theorem referenced_of_not_mem {cs : List Char} (h : '&' ∉ cs) : Referenced cs := by
  intro before after heq
  exact absurd (heq ▸ List.mem_append_right before List.mem_cons_self) h

theorem referenced_nil : Referenced [] := referenced_of_not_mem List.not_mem_nil

theorem Referenced.append {a b : List Char} (ha : Referenced a) (hb : Referenced b) :
    Referenced (a ++ b) := by
  intro before after heq
  rcases List.append_eq_append_iff.mp heq with ⟨mid, hbefore, hafter⟩ | ⟨mid, hbefore, hafter⟩
  · exact hb mid after hafter
  · cases mid with
    | nil => exact hb [] after hafter.symm
    | cons c rest =>
      obtain ⟨hc, hrest⟩ : '&' = c ∧ after = rest ++ b := by
        simpa only [List.cons_append, List.cons.injEq] using hafter
      subst hc
      obtain ⟨e, he, hpre⟩ := ha before rest hbefore
      refine ⟨e, he, hpre.trans ?_⟩
      rw [hrest]
      exact List.prefix_append ('&' :: rest) b

theorem Referenced.flatMap {α : Type} {l : List α} {f : α → List Char}
    (h : ∀ x ∈ l, Referenced (f x)) : Referenced (l.flatMap f) := by
  induction l with
  | nil => exact referenced_nil
  | cons x l ih =>
    rw [List.flatMap_cons]
    exact (h x List.mem_cons_self).append (ih fun y hy => h y (List.mem_cons_of_mem x hy))

theorem referenced_of_entity {e : List Char} (he : e ∈ entities) : Referenced e := by
  intro before after heq
  -- an entity has one ampersand, its first character
  cases before with
  | nil => exact ⟨e, he, heq ▸ List.prefix_rfl⟩
  | cons d rest =>
    have hmem : '&' ∈ e.tail := by simp [heq]
    simp only [entities, List.mem_cons, List.not_mem_nil, or_false] at he
    rcases he with rfl | rfl | rfl | rfl | rfl <;> exact absurd hmem (by decide)

/-! ### clean text -/

theorem clean_nil : Clean [] := ⟨List.not_mem_nil, referenced_nil⟩

theorem clean_of_not_mem {cs : List Char} (hlt : '<' ∉ cs) (hamp : '&' ∉ cs) : Clean cs :=
  ⟨hlt, referenced_of_not_mem hamp⟩

/-! ### one replacement after the other -/

/-- some characters behind replacements, made in their order -/
def passes (rs : List (Char × String)) (cs : List Char) : List Char :=
  rs.foldl (fun cs r => cs.flatMap (Text.swap r.1 r.2)) cs

section
variable {rs : List (Char × String)}

theorem passes_cons (r : Char × String) (cs : List Char) :
    passes (r :: rs) cs = passes rs (cs.flatMap (Text.swap r.1 r.2)) := rfl

theorem passes_append (a b : List Char) : passes rs (a ++ b) = passes rs a ++ passes rs b := by
  induction rs generalizing a b with
  | nil => rfl
  | cons r rs ih => rw [passes_cons, List.flatMap_append, ih, ← passes_cons, ← passes_cons]

theorem passes_nil : passes rs [] = [] := by
  induction rs with
  | nil => rfl
  | cons r rs ih => exact ih

theorem passes_eq_flatMap (cs : List Char) : passes rs cs = cs.flatMap fun c => passes rs [c] := by
  induction cs with
  | nil => exact passes_nil
  | cons c cs ih => rw [← List.singleton_append, passes_append, ih, List.flatMap_append,
      List.flatMap_singleton]

theorem flatMap_swap_of_not_mem {old : Char} {new : String} {cs : List Char} (h : old ∉ cs) :
    cs.flatMap (Text.swap old new) = cs := by
  have hsame : ∀ c ∈ cs, Text.swap old new c = [c] := by
    intro c hc
    refine if_neg ?_
    rintro rfl
    exact h hc
  rw [List.flatMap_congr hsame, List.flatMap_singleton']

/-- characters that no replacement is about stay -/
theorem passes_of_not_mem {cs : List Char} (h : ∀ r ∈ rs, r.1 ∉ cs) : passes rs cs = cs := by
  induction rs with
  | nil => rfl
  | cons r rs ih =>
    rw [passes_cons, flatMap_swap_of_not_mem (h r List.mem_cons_self),
      ih fun q hq => h q (List.mem_cons_of_mem r hq)]

/-- Where no later replacement is about a character that an earlier one inserts, a character is
replaced at most once, by the first one that is about it. -/
theorem passes_singleton (h : rs.Pairwise fun r q => q.1 ∉ r.2.toList) (c : Char) :
    passes rs [c] = ((rs.find? fun r => c = r.1).map fun r => r.2.toList).getD [c] := by
  induction rs with
  | nil => rfl
  | cons r rs ih =>
    obtain ⟨hlater, hrest⟩ := List.pairwise_cons.mp h
    rw [passes_cons, List.flatMap_singleton, Text.swap]
    by_cases hc : c = r.1
    · rw [if_pos hc, passes_of_not_mem hlater, List.find?_cons_of_pos (by simpa using hc)]
      rfl
    · rw [if_neg hc, ih hrest, List.find?_cons_of_neg (by simpa using hc)]

end

theorem toList_foldl_replace (rs : List (Char × String)) (s : String) :
    (rs.foldl (fun t r => Text.replace r.1 r.2 t) s).toList = passes rs s.toList := by
  induction rs generalizing s with
  | nil => rfl
  | cons r rs ih => rw [List.foldl_cons, ih, Text.replace, String.toList_ofList, passes_cons]

/-! ### escaped text -/

/-- the characters that one character is written as -/
def escapeChar (c : Char) : List Char :=
  if c = '&' then "&amp;".toList
  else if c = '<' then "&lt;".toList
  else if c = '>' then "&gt;".toList
  else if c = '\x22' then "&quot;".toList
  else if c = '\x27' then "&apos;".toList
  else [c]

/-- no entity holds a character that is replaced after it was written -/
theorem references_pairwise : references.Pairwise fun r q => q.1 ∉ r.2.toList := by decide

theorem passes_references (c : Char) : passes references [c] = escapeChar c := by
  rw [passes_singleton references_pairwise, escapeChar]
  simp only [references, List.find?_cons, List.find?_nil]
  split_ifs <;> simp [*]

theorem escapeChar_of_not_mem {c : Char} (h : c ∉ special) : escapeChar c = [c] := by
  simp only [special, List.mem_cons, List.not_mem_nil, or_false, not_or] at h
  obtain ⟨hamp, hlt, hgt, hquote, hapos⟩ := h
  simp only [escapeChar, if_neg hamp, if_neg hlt, if_neg hgt, if_neg hquote, if_neg hapos]

theorem escapeChar_form (c : Char) :
    escapeChar c ∈ entities ∨ (c ∉ special ∧ escapeChar c = [c]) := by
  by_cases hc : c ∈ special
  · left
    simp only [special, List.mem_cons, List.not_mem_nil, or_false] at hc
    rcases hc with rfl | rfl | rfl | rfl | rfl <;> decide
  · exact .inr ⟨hc, escapeChar_of_not_mem hc⟩

/-- the five replacements are one: each character is written on its own -/
theorem toList_escape (s : String) : (escape s).toList = s.toList.flatMap escapeChar := by
  rw [escape_eq, toList_foldl_replace, passes_eq_flatMap]
  exact List.flatMap_congr fun c _ => passes_references c

theorem referenced_escape (s : String) : Referenced (escape s).toList := by
  rw [toList_escape]
  refine Referenced.flatMap fun c _ => ?_
  rcases escapeChar_form c with he | ⟨hc, heq⟩
  · exact referenced_of_entity he
  · rw [heq]
    refine referenced_of_not_mem ?_
    simp only [List.mem_singleton]
    rintro rfl
    exact hc (by decide)

/-- a special character that no entity contains is not left in an escaped text -/
theorem not_mem_escape {x : Char} (hx : x ∈ special) (hne : ∀ e ∈ entities, x ∉ e) (s : String) :
    x ∉ (escape s).toList := by
  rw [toList_escape]
  intro hmem
  obtain ⟨c, _, hc⟩ := List.mem_flatMap.mp hmem
  rcases escapeChar_form c with he | ⟨hspecial, heq⟩
  · exact hne _ he hc
  · rw [heq, List.mem_singleton] at hc
    exact hspecial (hc ▸ hx)

theorem lt_not_mem_escape (s : String) : '<' ∉ (escape s).toList :=
  not_mem_escape (by decide) (by decide) s

theorem quote_not_mem_escape (s : String) : '\x22' ∉ (escape s).toList :=
  not_mem_escape (by decide) (by decide) s

theorem clean_escape (s : String) : Clean (escape s).toList :=
  ⟨lt_not_mem_escape s, referenced_escape s⟩

/-! ### what escaped text stands for -/

/-- the text that escaped characters stand for: the five entities, from left to right -/
def unescape : List Char → List Char
  | '&' :: 'a' :: 'm' :: 'p' :: ';' :: cs => '&' :: unescape cs
  | '&' :: 'l' :: 't' :: ';' :: cs => '<' :: unescape cs
  | '&' :: 'g' :: 't' :: ';' :: cs => '>' :: unescape cs
  | '&' :: 'q' :: 'u' :: 'o' :: 't' :: ';' :: cs => '\x22' :: unescape cs
  | '&' :: 'a' :: 'p' :: 'o' :: 's' :: ';' :: cs => '\x27' :: unescape cs
  | c :: cs => c :: unescape cs
  | [] => []

theorem unescape_cons {c : Char} (h : c ≠ '&') (cs : List Char) :
    unescape (c :: cs) = c :: unescape cs := by
  rw [unescape]
  all_goals
    intros
    exact h ‹_›

theorem unescape_escapeChar (c : Char) (cs : List Char) :
    unescape (escapeChar c ++ cs) = c :: unescape cs := by
  by_cases hc : c ∈ special
  · simp only [special, List.mem_cons, List.not_mem_nil, or_false] at hc
    rcases hc with rfl | rfl | rfl | rfl | rfl <;> rfl
  · have hamp : c ≠ '&' := fun heq => hc (heq ▸ by decide)
    rw [escapeChar_of_not_mem hc, List.singleton_append, unescape_cons hamp]

theorem unescape_escape (s : String) : unescape (escape s).toList = s.toList := by
  have hflat : ∀ cs : List Char, unescape (cs.flatMap escapeChar) = cs := by
    intro cs
    induction cs with
    | nil => rfl
    | cons c cs ih => rw [List.flatMap_cons, unescape_escapeChar, ih]
  rw [toList_escape, hflat]

end Figures.Markup
