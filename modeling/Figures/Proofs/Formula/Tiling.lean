import Figures.Proofs.Formula.Lexicon
import Figures.Proofs.Formula.Margins

/-!
# Tokens tile the text

* `Longest cs part t`        `part` is the longest token that the text `cs` starts with
* `Tiles start stop cs ls`   the tokens `ls` tile the text from byte `start` to byte `stop`, gaps
                             between them
* `Slice`                    the characters of a text at a range of bytes
* `rejoin`                   slices with other gaps between them
* `Lexeme.lex_tiles`         the tokens of a text tile it, or they do up to a place where no token
                             starts; with other gaps, the tokens are the same
-/

namespace Figures

open Lexeme

/-- `part` is the longest token that a text starts with -/
structure Longest (cs part : List Char) (t : Token) : Prop where
  spells : Spells part t
  part_prefix : part <+: cs
  longest : ∀ other u, Spells other u → other <+: cs → other.length ≤ part.length

/-- The tokens `ls` of a text that begins at byte `start` tile it up to byte `stop`: each stands in
the text where its range says and is the longest one there, they follow each other, and what is
between them may stand between tokens. -/
structure Tiles (start stop : ℕ) (cs : List Char) (ls : List Lexeme) : Prop where
  stands : ∀ l ∈ ls, ∃ before part behind, cs = before ++ (part ++ behind) ∧
    l.span = ⟨start + byteSize before, start + byteSize before + byteSize part⟩ ∧
    Longest (part ++ behind) part l.token
  inside : ∀ l ∈ ls, start ≤ l.span.start ∧ l.span.start < l.span.stop ∧ l.span.stop ≤ stop
  ascending : ls.Pairwise fun l k => l.span.stop ≤ k.span.start
  gaps : ∀ before c behind, cs = before ++ c :: behind → start + byteSize before < stop →
    isGap c = true ∨ ∃ l ∈ ls, l.span.start ≤ start + byteSize before ∧
      start + byteSize before < l.span.stop

namespace Tiles

variable {start stop : ℕ} {c : Char} {cs part : List Char} {ls : List Lexeme} {t : Token}

theorem nil (start : ℕ) (cs : List Char) : Tiles start start cs [] where
  stands := fun l hl => absurd hl List.not_mem_nil
  inside := fun l hl => absurd hl List.not_mem_nil
  ascending := .nil
  gaps := fun before c behind _ hbefore => absurd hbefore (by omega)

theorem gap (hgap : isGap c = true) (h : Tiles (start + 1) stop cs ls) :
    Tiles start stop (c :: cs) ls where
  stands := by
    intro l hl
    obtain ⟨before, part, behind, rfl, hspan, hlongest⟩ := h.stands l hl
    refine ⟨c :: before, part, behind, rfl, ?_, hlongest⟩
    rw [hspan, byteSize_cons, utf8Size_of_isGap hgap, Nat.add_assoc start 1]
  inside := fun l hl => by
    have hinside := h.inside l hl
    omega
  ascending := h.ascending
  gaps := by
    intro before d behind heq hbefore
    cases before with
    | nil =>
      obtain ⟨rfl, -⟩ := List.cons.inj heq
      exact .inl hgap
    | cons b before =>
      obtain ⟨rfl, hcs⟩ := List.cons.inj heq
      rw [byteSize_cons, utf8Size_of_isGap hgap, ← Nat.add_assoc] at hbefore ⊢
      exact h.gaps before d behind hcs hbefore

theorem token (hlongest : Longest (part ++ cs) part t)
    (h : Tiles (start + byteSize part) stop cs ls) (hstop : start + byteSize part ≤ stop) :
    Tiles start stop (part ++ cs) (⟨t, ⟨start, start + byteSize part⟩⟩ :: ls) where
  stands := by
    refine List.forall_mem_cons.mpr ⟨⟨[], part, cs, rfl, rfl, hlongest⟩, fun l hl => ?_⟩
    obtain ⟨before, other, behind, rfl, hspan, hother⟩ := h.stands l hl
    refine ⟨part ++ before, other, behind, by rw [List.append_assoc], ?_, hother⟩
    rw [hspan, byteSize_append, Nat.add_assoc start]
  inside := by
    obtain ⟨d, ds, rfl, -⟩ := exists_cons_of_spells hlongest.spells
    have hpos := byteSize_pos (List.cons_ne_nil d ds)
    refine List.forall_mem_cons.mpr ⟨by dsimp only; omega, fun l hl => ?_⟩
    have hinside := h.inside l hl
    omega
  ascending := List.pairwise_cons.mpr ⟨fun l hl => (h.inside l hl).1, h.ascending⟩
  gaps := by
    intro before d behind heq hbefore
    rcases List.append_eq_append_iff.mp heq with ⟨front, rfl, hcs⟩ | ⟨back, rfl, hback⟩
    · -- behind the token
      rw [byteSize_append, ← Nat.add_assoc] at hbefore ⊢
      rcases h.gaps front d behind hcs hbefore with hgap | ⟨l, hl, hplace⟩
      · exact .inl hgap
      · exact .inr ⟨l, List.mem_cons_of_mem _ hl, hplace⟩
    · cases back with
      | nil =>
        rw [List.nil_append] at hback
        rw [List.append_nil] at h
        have hplace := h.gaps [] d behind hback.symm
        simp only [show byteSize [] = 0 from rfl, Nat.add_zero] at hplace
        rcases hplace hbefore with hgap | ⟨l, hl, hplace⟩
        · exact .inl hgap
        · exact .inr ⟨l, List.mem_cons_of_mem _ hl, hplace⟩
      | cons b back =>
        refine .inr ⟨_, List.mem_cons_self, by dsimp only; omega, ?_⟩
        have hpos := byteSize_pos (List.cons_ne_nil b back)
        dsimp only
        rw [byteSize_append]
        omega

end Tiles

namespace Lexeme

variable {start : ℕ} {c : Char} {cs : List Char}

theorem longest_of_munch {t : Token} (h : (munch c cs).token? = some t) :
    Longest (c :: cs) (c :: (munch c cs).extra) t where
  spells := spells_munch h
  part_prefix := (List.prefix_append_right_inj [c]).mpr (prefix_extra c cs)
  longest := fun _ _ hspells hpart => (longest_munch hspells hpart).2

theorem append_drop_extra (c : Char) (cs : List Char) :
    c :: (munch c cs).extra ++ cs.drop (munch c cs).extra.length = c :: cs := by
  obtain ⟨rest, hrest⟩ := prefix_extra c cs
  have hdrop := @List.drop_left _ (munch c cs).extra rest
  rw [hrest] at hdrop
  rw [hdrop, List.cons_append, hrest]

theorem tiles_token {stop : ℕ} {t : Token} {ls : List Lexeme} (h : (munch c cs).token? = some t)
    (hrest : Tiles (start + byteSize (c :: (munch c cs).extra)) stop
      (cs.drop (munch c cs).extra.length) ls)
    (hstop : start + byteSize (c :: (munch c cs).extra) ≤ stop) :
    Tiles start stop (c :: cs)
      (⟨t, ⟨start, start + byteSize (c :: (munch c cs).extra)⟩⟩ :: ls) := by
  have hlongest := longest_of_munch h
  rw [← append_drop_extra c cs] at hlongest
  have htiles := hrest.token hlongest hstop
  rwa [append_drop_extra c cs] at htiles

theorem tiles_of_ok {ls : List Lexeme} (h : lexFrom start cs = .ok ls) :
    Tiles start (start + byteSize cs) cs ls := by
  induction start, cs using lexFrom_induction generalizing ls with
  | nil start =>
    rw [lexFrom] at h
    cases h
    exact .nil start []
  | gap start c cs hgap ih =>
    rw [lexFrom_gap hgap] at h
    have htiles := ih h
    rw [byteSize_cons, utf8Size_of_isGap hgap, ← Nat.add_assoc]
    exact htiles.gap hgap
  | stray start c cs hgap hnone =>
    rw [lexFrom_stray hgap hnone] at h
    cases h
  | token start c cs t hgap hsome ih =>
    rw [lexFrom_token hgap hsome] at h
    obtain ⟨rest, hrest, rfl⟩ := ok_of_map h
    have htiles := ih hrest
    rw [Nat.add_assoc, byteSize_munch] at htiles
    exact tiles_token hsome htiles (by have hsize := byteSize_munch c cs; omega)

/-- an error is at the first place that no token starts at, behind the tokens in front of it -/
theorem tiles_of_error {e : FormulaError} (h : lexFrom start cs = .error e) :
    ∃ span reason ls before c behind, e = .malformed span reason [] ∧
      cs = before ++ c :: behind ∧ span.start = start + byteSize before ∧ isGap c = false ∧
      (∀ part t, Spells part t → ¬ part <+: c :: behind) ∧ Tiles start span.start cs ls := by
  induction start, cs using lexFrom_induction with
  | nil start =>
    rw [lexFrom] at h
    cases h
  | gap start c cs hgap ih =>
    rw [lexFrom_gap hgap] at h
    obtain ⟨span, reason, ls, before, d, behind, he, rfl, hspan, hd, hnone, htiles⟩ := ih h
    refine ⟨span, reason, ls, c :: before, d, behind, he, rfl, ?_, hd, hnone, htiles.gap hgap⟩
    rw [hspan, byteSize_cons, utf8Size_of_isGap hgap, Nat.add_assoc]
  | stray start c cs hgap hnone =>
    rw [lexFrom_stray hgap hnone] at h
    obtain rfl := Except.error.inj h
    exact ⟨_, _, [], [], c, cs, rfl, rfl, rfl, hgap, not_spells_of_none hnone, .nil start _⟩
  | token start c cs t hgap hsome ih =>
    rw [lexFrom_token hgap hsome] at h
    obtain ⟨span, reason, ls, before, d, behind, he, hcs, hspan, hd, hnone, htiles⟩ :=
      ih (error_of_map h)
    refine ⟨span, reason, _, c :: (munch c cs).extra ++ before, d, behind, he, ?_, ?_, hd, hnone,
      tiles_token hsome htiles (by omega)⟩
    · rw [List.append_assoc, ← hcs, append_drop_extra]
    · rw [hspan, byteSize_append, Nat.add_assoc]

end Lexeme

/-! ### other gaps between the tokens -/

/-- `part` is what stands at the range `span` of the text -/
def Slice (cs : List Char) (span : Span) (part : List Char) : Prop :=
  ∃ before behind, cs = before ++ (part ++ behind) ∧
    span = ⟨byteSize before, byteSize before + byteSize part⟩

/-- of two starts of a text with as many bytes, one is the other -/
theorem append_inj_of_byteSize {a a' b b' : List Char} (h : a ++ b = a' ++ b')
    (hsize : byteSize a = byteSize a') : a = a' ∧ b = b' := by
  have hnil : ∀ x : List Char, ∀ n, n + byteSize x = n → x = [] := by
    intro x n hx
    by_contra hne
    have hpos := byteSize_pos hne
    omega
  rcases List.append_eq_append_iff.mp h with ⟨x, rfl, rfl⟩ | ⟨x, rfl, rfl⟩
  · rw [byteSize_append] at hsize
    obtain rfl := hnil x _ hsize.symm
    exact ⟨(List.append_nil a).symm, rfl⟩
  · rw [byteSize_append] at hsize
    obtain rfl := hnil x _ hsize
    exact ⟨List.append_nil a', rfl⟩

theorem Slice.unique {cs part part' : List Char} {span : Span} (h : Slice cs span part)
    (h' : Slice cs span part') : part = part' := by
  obtain ⟨before, behind, rfl, rfl⟩ := h
  obtain ⟨before', behind', heq, hspan⟩ := h'
  obtain ⟨hstart, hstop⟩ := Span.mk.inj hspan
  obtain ⟨-, hrest⟩ := append_inj_of_byteSize heq hstart
  exact (append_inj_of_byteSize hrest (by omega)).1

/-- runs of gaps around `n` slices; only in front of the first and behind the last one they may be
empty -/
structure Gapping (n : ℕ) (lead : List Char) (gaps : List (List Char)) : Prop where
  length_eq : gaps.length = n
  isGap_of_mem : ∀ gap ∈ lead :: gaps, ∀ c ∈ gap, isGap c = true
  ne_nil : ∀ gap ∈ gaps.dropLast, gap ≠ []

def rejoin (lead : List Char) (parts gaps : List (List Char)) : List Char :=
  lead ++ (parts.zip gaps).flatMap fun e => e.1 ++ e.2

namespace Lexes

variable {ts : List Token}

theorem gaps {gap rest : List Char} (hgap : ∀ c ∈ gap, isGap c = true) (h : Lexes rest ts) :
    Lexes (gap ++ rest) ts := by
  intro start
  rw [lexFrom_gaps hgap]
  exact h (start + gap.length)

theorem spelled {part rest : List Char} {t : Token} (hpart : Spells part t)
    (hrest : ∀ d ∈ rest.head?, isGap d = true) (h : Lexes rest ts) :
    Lexes (part ++ rest) (t :: ts) := by
  obtain ⟨c, cs, rfl, hc⟩ := exists_cons_of_spells hpart
  exact cons hc (munch_of_spells hrest hpart) List.drop_left h

/-- tokens with gaps behind them are read again, whatever the gaps are -/
theorem woven {parts : List (List Char)} (hparts : List.Forall₂ Spells parts ts)
    (gaps : List (List Char)) (hlength : gaps.length = parts.length)
    (hgaps : ∀ gap ∈ gaps, ∀ c ∈ gap, isGap c = true) (hne : ∀ gap ∈ gaps.dropLast, gap ≠ []) :
    Lexes ((parts.zip gaps).flatMap fun e => e.1 ++ e.2) ts := by
  induction hparts generalizing gaps with
  | nil => exact Lexes.nil
  | @cons part t parts ts hpart hrest ih =>
    obtain ⟨gap, gaps, rfl⟩ := List.exists_cons_of_length_eq_add_one hlength
    have hgap : ∀ c ∈ gap, isGap c = true := hgaps gap List.mem_cons_self
    rw [List.zip_cons_cons, List.flatMap_cons, List.append_assoc]
    cases gaps with
    | nil =>
      -- the last token: its gap may be empty, and nothing is behind it
      obtain rfl : parts = [] := List.length_eq_zero_iff.mp (Nat.succ.inj hlength).symm
      cases hrest
      refine spelled hpart (fun d hd => ?_) (Lexes.gaps hgap Lexes.nil)
      rw [List.zip_nil_left, List.flatMap_nil, List.append_nil] at hd
      exact hgap d (List.mem_of_mem_head? hd)
    | cons gap' gaps =>
      rw [List.dropLast_cons_cons] at hne
      have hbehind := ih (gap' :: gaps) (Nat.succ.inj hlength)
        (fun g hg => hgaps g (List.mem_cons_of_mem gap hg))
        fun g hg => hne g (List.mem_cons_of_mem gap hg)
      refine spelled hpart (fun d hd => ?_) (Lexes.gaps hgap hbehind)
      obtain ⟨c, cs, rfl⟩ := List.exists_cons_of_ne_nil (hne gap List.mem_cons_self)
      obtain rfl := Option.some.inj hd
      exact hgap c List.mem_cons_self

end Lexes

/-- the slices of tokens that tile a text are spelled as these -/
theorem Tiles.spells_of_slices {stop : ℕ} {cs : List Char} {ls : List Lexeme}
    (h : Tiles 0 stop cs ls) {parts : List (List Char)}
    (hparts : List.Forall₂ (Slice cs) (ls.map Lexeme.span) parts) :
    List.Forall₂ Spells parts (ls.map Lexeme.token) := by
  have hstands : ∀ l ∈ ls, ∀ part, Slice cs l.span part → Spells part l.token := by
    intro l hl part hslice
    obtain ⟨before, other, behind, hcs, hspan, hlongest⟩ := h.stands l hl
    rw [Nat.zero_add] at hspan
    obtain rfl := hslice.unique ⟨before, behind, hcs, hspan⟩
    exact hlongest.spells
  clear h
  induction ls generalizing parts with
  | nil =>
    cases hparts
    exact .nil
  | cons l ls ih =>
    cases hparts with
    | cons hslice hrest =>
      exact .cons (hstands l List.mem_cons_self _ hslice)
        (ih hrest fun k hk => hstands k (List.mem_cons_of_mem l hk))

theorem Tiles.exists_slices {stop : ℕ} {cs : List Char} {ls : List Lexeme}
    (h : Tiles 0 stop cs ls) :
    ∃ parts, List.Forall₂ (Slice cs) (ls.map Lexeme.span) parts := by
  have hslice : ∀ l ∈ ls, ∃ part, Slice cs l.span part := by
    intro l hl
    obtain ⟨before, part, behind, hcs, hspan, -⟩ := h.stands l hl
    rw [Nat.zero_add] at hspan
    exact ⟨part, before, behind, hcs, hspan⟩
  clear h
  induction ls with
  | nil => exact ⟨[], .nil⟩
  | cons l ls ih =>
    obtain ⟨part, hpart⟩ := hslice l List.mem_cons_self
    obtain ⟨parts, hparts⟩ := ih fun k hk => hslice k (List.mem_cons_of_mem l hk)
    exact ⟨part :: parts, .cons hpart hparts⟩

/-- The tokens of a text tile it: each is the longest one where it stands, and only gaps are between
them; joined with any other gaps, they are read again. Where the text has an error instead, tokens
tile it up to the first place, not a gap, where no token starts. -/
theorem Lexeme.lex_tiles (s : String) :
    match Lexeme.lex s with
    | .ok ls => Tiles 0 s.utf8ByteSize s.toList ls ∧
        (∃ parts, List.Forall₂ (Slice s.toList) (ls.map Lexeme.span) parts) ∧
        ∀ parts lead gaps, List.Forall₂ (Slice s.toList) (ls.map Lexeme.span) parts →
          Gapping ls.length lead gaps →
          ∃ ks, Lexeme.lex (String.ofList (rejoin lead parts gaps)) = .ok ks ∧
            ks.map Lexeme.token = ls.map Lexeme.token
    | .error e => ∃ span reason ls before c behind, e = .malformed span reason [] ∧
        s.toList = before ++ c :: behind ∧ span.start = byteSize before ∧ isGap c = false ∧
        (∀ part t, Spells part t → ¬ part <+: c :: behind) ∧ Tiles 0 span.start s.toList ls := by
  rw [Lexeme.lex]
  cases hlex : lexFrom 0 s.toList with
  | ok ls =>
    have htiles := tiles_of_ok hlex
    rw [Nat.zero_add, ← Formula.utf8ByteSize_eq] at htiles
    refine ⟨htiles, htiles.exists_slices, fun parts lead gaps hparts hgapping => ?_⟩
    have hlength : gaps.length = parts.length := by
      rw [hgapping.length_eq, ← hparts.length_eq, List.length_map]
    have hwoven := Lexes.woven (htiles.spells_of_slices hparts) gaps hlength
      (fun gap hgap => hgapping.isGap_of_mem gap (List.mem_cons_of_mem lead hgap)) hgapping.ne_nil
    obtain ⟨ks, hks, htokens⟩ :=
      Lexes.gaps (hgapping.isGap_of_mem lead List.mem_cons_self) hwoven 0
    exact ⟨ks, by rw [Lexeme.lex, String.toList_ofList, rejoin, hks], htokens⟩
  | error e =>
    obtain ⟨span, reason, ls, before, c, behind, he, hcs, hspan, hc, hnone, htiles⟩ :=
      tiles_of_error hlex
    exact ⟨span, reason, ls, before, c, behind, he, hcs, by rw [hspan, Nat.zero_add], hc, hnone,
      htiles⟩

end Figures
