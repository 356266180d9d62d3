import Figures.Proofs.Formula.Punctuation
import Figures.Proofs.Formula.Reader

/-!
# Where a text stops being a formula

* `Sentence`, `Viable`           the tokens of a formula, and those that a formula starts with
* `Reader.Rooted`                arguments are only awaited inside a call
* `Reader.viable_iff`            tokens start a formula if they lead the reader to a state
* `Reader.mem_expected_iff`      a reader expects the marks that lead it on, and the end where it
                                 may stop
* `Reader.exists_stuck`          a run without a formula is stuck at a token or at the end
* `Failure.Furthest`             the furthest of some failures are at one place
* `Formula.read_error_located`   the error of a text is at the end of its longest viable part, and
                                 lists the marks that could stand there
-/

namespace Figures

def Sentence (ts : List Token) : Prop := ∃ d : Derivation, d.tokens = ts

/-- a formula starts with these tokens -/
def Viable (ts : List Token) : Prop := ∃ rest, Sentence (ts ++ rest)

def Token.marks : List Token := [.opening, .closing, .comma, .dot]

theorem Viable.of_append {front back : List Token} (h : Viable (front ++ back)) : Viable front := by
  obtain ⟨rest, hrest⟩ := h
  exact ⟨back ++ rest, by rwa [← List.append_assoc]⟩

namespace Reader

open Figures.Derivation (formulas)

/-! ### several tokens on -/

theorem completes_append_iff (r : Reader) (ts rest : List Token) (e : Formula) :
    r.Completes (ts ++ rest) e ↔ ∃ last, ts.foldlM step r = some last ∧ last.Completes rest e := by
  induction ts generalizing r with
  | nil => simp
  | cons t ts ih =>
    rw [List.cons_append, completes_cons_iff, List.foldlM_cons]
    cases r.step t with
    | none => simp
    | some next => simp [ih next]

theorem sentence_append_iff (ts rest : List Token) :
    Sentence (ts ++ rest) ↔
      ∃ last e, ts.foldlM step start = some last ∧ last.Completes rest e := by
  constructor
  · rintro ⟨d, hd⟩
    have hcomplete := (completes_start_iff (ts ++ rest) d.formula).mpr ⟨d, hd, rfl⟩
    obtain ⟨last, hlast, hrest⟩ := (completes_append_iff start ts rest d.formula).mp hcomplete
    exact ⟨last, d.formula, hlast, hrest⟩
  · rintro ⟨last, e, hlast, hrest⟩
    have hcomplete := (completes_append_iff start ts rest e).mpr ⟨last, hlast, hrest⟩
    obtain ⟨d, hd, -⟩ := (completes_start_iff (ts ++ rest) e).mp hcomplete
    exact ⟨d, hd⟩

/-! ### every state that is reached leads to the end of a formula -/

/-- arguments are only awaited inside a call -/
def Rooted (r : Reader) : Prop := r.awaiting = .argument → r.pending ≠ []

theorem rooted_start : start.Rooted := nofun

theorem opening_of_begin {pending : List Pending} {next : Reader} {t : Token}
    (h : (begin? t).map (⟨·, pending⟩) = some next) (harg : next.awaiting = .argument) :
    t = .opening := by
  obtain ⟨awaiting, hbegin, rfl⟩ := Option.map_eq_some_iff.mp h
  obtain rfl : awaiting = .argument := harg
  cases t <;> exact absurd hbegin nofun

theorem opening_of_follow {pending : List Pending} {value : Formula} {t : Token} {next : Reader}
    (h : follow value pending t = some next) (harg : next.awaiting = .argument) : t = .opening := by
  cases pending with
  | nil => exact absurd h nofun
  | cons p rest =>
    cases t with
    | comma => exact absurd harg (Option.some.inj h ▸ nofun)
    | closing => exact absurd harg (Option.some.inj h ▸ nofun)
    | _ => exact absurd h nofun

/-- only an opening parenthesis leads to arguments -/
theorem opening_of_step {r next : Reader} {t : Token} (h : r.step t = some next)
    (harg : next.awaiting = .argument) : t = .opening := by
  obtain ⟨awaiting, pending⟩ := r
  cases awaiting with
  | formula => exact opening_of_begin h harg
  | argument =>
    cases t with
    | opening => rfl
    | comma => exact absurd h nofun
    | dot => exact absurd h nofun
    | closing =>
      cases pending with
      | nil => exact absurd h nofun
      | cons p rest =>
        obtain rfl := Option.some.inj h
        exact absurd harg nofun
    | _ => exact opening_of_begin h harg
  | afterHead name =>
    cases t with
    | opening => rfl
    | dot =>
      obtain rfl := Option.some.inj h
      exact absurd harg nofun
    | _ => exact opening_of_follow h harg
  | segment segments =>
    cases t with
    | name s =>
      obtain rfl := Option.some.inj h
      exact absurd harg nofun
    | number x =>
      obtain ⟨s, -, rfl⟩ := Option.map_eq_some_iff.mp h
      exact absurd harg nofun
    | _ => exact absurd h nofun
  | afterSegment segments =>
    cases t with
    | dot =>
      obtain rfl := Option.some.inj h
      exact absurd harg nofun
    | _ => exact opening_of_follow h harg
  | afterValue value => exact opening_of_follow h harg

theorem rooted_of_step {r next : Reader} {t : Token} (h : r.step t = some next) : next.Rooted := by
  intro harg hnone
  obtain rfl := opening_of_step h harg
  have hpending := (moves_of_step h).pending
  rw [hnone, List.length_nil] at hpending
  simp only [Token.weight] at hpending
  omega

theorem rooted_of_foldlM {r last : Reader} {ts : List Token} (hr : r.Rooted)
    (h : ts.foldlM step r = some last) : last.Rooted := by
  induction ts generalizing r with
  | nil => exact Option.some.inj h ▸ hr
  | cons t rest ih =>
    rw [List.foldlM_cons] at h
    obtain ⟨next, hnext, hrest⟩ := Option.bind_eq_some_iff.mp h
    exact ih (rooted_of_step hnext) hrest

theorem exists_closes (pending : List Pending) (value : Formula) :
    ∃ ts e, Closes pending value ts e := by
  induction pending generalizing value with
  | nil => exact ⟨[], value, rfl, rfl⟩
  | cons p rest ih =>
    obtain ⟨ts, e, hclose⟩ := ih (.call p.name (p.args.reverse ++ value :: formulas []))
    exact ⟨.closing :: ts, e, [], ts, rfl, hclose⟩

theorem exists_begins (pending : List Pending) : ∃ ts e, Begins pending ts e := by
  obtain ⟨ts, e, hclose⟩ := exists_closes pending (.text "")
  exact ⟨.text "" :: ts, e, .text "", ts, rfl, hclose⟩

theorem exists_continues (pending : List Pending) (segments : List String) :
    ∃ ts e, Continues pending segments ts e := by
  obtain ⟨ts, e, hclose⟩ := exists_closes pending (.path segments)
  exact ⟨ts, e, [], ts, rfl, by rwa [List.map_nil, List.append_nil]⟩

theorem exists_completes {r : Reader} (h : r.Rooted) : ∃ ts e, r.Completes ts e := by
  obtain ⟨awaiting, pending⟩ := r
  cases awaiting with
  | formula => exact exists_begins pending
  | argument =>
    cases pending with
    | nil => exact absurd rfl (h rfl)
    | cons p rest =>
      obtain ⟨ts, e, hclose⟩ := exists_closes rest (.call p.name [])
      exact ⟨.closing :: ts, e, .inr ⟨p, rest, ts, rfl, rfl, hclose⟩⟩
  | afterHead name =>
    obtain ⟨ts, e, hcontinue⟩ := exists_continues pending [name]
    exact ⟨ts, e, .inl hcontinue⟩
  | segment segments =>
    obtain ⟨ts, e, hcontinue⟩ := exists_continues pending (segments.reverse ++ ["a"])
    exact ⟨.name "a" :: ts, e, .name "a", ts, rfl, hcontinue⟩
  | afterSegment segments => exact exists_continues pending segments.reverse
  | afterValue value => exact exists_closes pending value

/-! ### viable tokens -/

theorem viable_iff (ts : List Token) : Viable ts ↔ ∃ r, ts.foldlM step start = some r := by
  constructor
  · rintro ⟨rest, hsentence⟩
    obtain ⟨r, -, hr, -⟩ := (sentence_append_iff ts rest).mp hsentence
    exact ⟨r, hr⟩
  · rintro ⟨r, hr⟩
    obtain ⟨rest, e, hrest⟩ := exists_completes (rooted_of_foldlM rooted_start hr)
    exact ⟨rest, (sentence_append_iff ts rest).mpr ⟨r, e, hr, hrest⟩⟩

section
variable {ts : List Token} {r : Reader} (h : ts.foldlM step start = some r)
include h

theorem viable_concat_iff (t : Token) : Viable (ts ++ [t]) ↔ (r.step t).isSome = true := by
  rw [viable_iff, List.foldlM_append, h, Option.isSome_iff_exists]
  simp

theorem sentence_iff : Sentence ts ↔ r.value?.isSome = true := by
  have hend := sentence_append_iff ts []
  rw [List.append_nil] at hend
  rw [hend, h, Option.isSome_iff_exists]
  simp [completes_nil_iff]

end

/-- what some marks are listed as, where they are those that satisfy `p` -/
theorem exists_marks_iff (p : Token → Prop) (text : String) :
    (∃ t ∈ Token.marks, t.shown = text ∧ p t) ↔
      text = "'('" ∧ p .opening ∨ text = "')'" ∧ p .closing ∨ text = "','" ∧ p .comma ∨
        text = "'.'" ∧ p .dot := by
  simp only [Token.marks, List.mem_cons, List.not_mem_nil, or_false, or_and_right, exists_or,
    exists_eq_left, Token.shown, eq_comm]

/-- a comma and the end of the call lead on behind a formula; outside of all calls nothing does -/
theorem mem_followers_iff (pending : List Pending) (value : Formula) (text : String) :
    text ∈ followers pending ↔
      text = "')'" ∧ (follow value pending .closing).isSome = true ∨
        text = "','" ∧ (follow value pending .comma).isSome = true ∨
        text = "end of input" ∧ pending = [] := by
  cases pending with
  | nil => simp [followers, follow]
  | cons p rest => simp [followers, follow, Token.shown, or_comm]

/-- a reader expects the marks that lead it on, and the end of the text where a formula may end -/
theorem mem_expected_iff {r : Reader} (h : r.Rooted) (text : String) :
    text ∈ r.expected ↔
      (∃ t ∈ Token.marks, t.shown = text ∧ (r.step t).isSome = true) ∨
        text = "end of input" ∧ r.value?.isSome = true := by
  rw [exists_marks_iff]
  obtain ⟨awaiting, pending⟩ := r
  cases awaiting with
  | formula => cases pending <;> simp [expected, step, begin?, value?]
  | argument =>
    cases pending with
    | nil => exact absurd rfl (h rfl)
    | cons p rest => simp [expected, step, begin?, value?, Token.shown]
  | afterHead name =>
    simp only [expected, List.mem_cons, mem_followers_iff pending (.path [name])]
    cases pending <;> simp [step, value?, follow, Token.shown, or_left_comm, or_comm]
  | segment segments => cases pending <;> simp [expected, step, value?]
  | afterSegment segments =>
    simp only [expected, List.mem_cons, mem_followers_iff pending (.path segments.reverse)]
    cases pending <;> simp [step, value?, follow, Token.shown, or_left_comm, or_comm]
  | afterValue value =>
    rw [expected, mem_followers_iff pending value]
    cases pending <;> simp [step, value?, follow]

/-- the same in terms of formulas: what could stand behind the tokens that have been read -/
theorem mem_expected_viable_iff {ts : List Token} {r : Reader} (h : ts.foldlM step start = some r)
    (text : String) : text ∈ r.expected ↔
      (∃ t ∈ Token.marks, t.shown = text ∧ Viable (ts ++ [t])) ∨
        text = "end of input" ∧ Sentence ts := by
  rw [mem_expected_iff (rooted_of_foldlM rooted_start h), sentence_iff h]
  simp only [viable_concat_iff h]

/-! ### where a run is stuck -/

/-- a run without a formula is stuck in front of a token, or at the end -/
theorem exists_stuck {size : ℕ} {r : Reader} {ls : List Lexeme} {e : FormulaError}
    (h : r.run size ls = .error e) :
    ∃ front back last, ls = front ++ back ∧ (front.map Lexeme.token).foldlM step r = some last ∧
      ((∃ x rest, back = x :: rest ∧ last.step x.token = none ∧
          e = .malformed x.span ("Unexpected " ++ x.token.shown) last.expected) ∨
        back = [] ∧ last.value? = none ∧
          e = .malformed ⟨size, size⟩ "Unexpected end of input" last.expected) := by
  induction ls generalizing r with
  | nil =>
    rw [run] at h
    cases hvalue : r.value? with
    | some f =>
      rw [hvalue] at h
      cases h
    | none =>
      rw [hvalue] at h
      exact ⟨[], [], r, rfl, rfl, .inr ⟨rfl, hvalue, (Except.error.inj h).symm⟩⟩
  | cons x rest ih =>
    rw [run] at h
    cases hstep : r.step x.token with
    | none =>
      rw [hstep] at h
      exact ⟨[], x :: rest, r, rfl, rfl, .inl ⟨x, rest, rfl, hstep, (Except.error.inj h).symm⟩⟩
    | some next =>
      rw [hstep] at h
      obtain ⟨front, back, last, rfl, hlast, hstuck⟩ := ih h
      refine ⟨x :: front, back, last, rfl, ?_, hstuck⟩
      rw [List.map_cons, List.foldlM_cons, hstep]
      exact hlast

end Reader

/-- The tokens `ls` of a text of `size` bytes stop being the start of a formula behind the first `n`
of them: an error there has the place of the next token and names it, or it is at the end. It lists
the marks that could stand at this place, and the end if the formula could end there. -/
structure StopsAt (size : ℕ) (ls : List Lexeme) (n : ℕ) (span : Span) (reason : String)
    (expected : List String) : Prop where
  viable_iff : ∀ k ≤ ls.length, Viable ((ls.take k).map Lexeme.token) ↔ k ≤ n
  at_token : ∀ x rest, ls.drop n = x :: rest →
    span = x.span ∧ reason = "Unexpected " ++ x.token.shown
  at_end : ls.drop n = [] → ¬ Sentence (ls.map Lexeme.token) ∧ span = ⟨size, size⟩ ∧
    reason = "Unexpected end of input"
  mem_expected_iff : ∀ text, text ∈ expected ↔
    (∃ t ∈ Token.marks, t.shown = text ∧ Viable ((ls.take n).map Lexeme.token ++ [t])) ∨
      text = "end of input" ∧ Sentence ((ls.take n).map Lexeme.token)

theorem viable_take_iff {front back : List Lexeme} (hfront : Viable (front.map Lexeme.token))
    (hback : ∀ x rest, back = x :: rest → ¬ Viable (front.map Lexeme.token ++ [x.token])) (k : ℕ)
    (hk : k ≤ (front ++ back).length) :
    Viable (((front ++ back).take k).map Lexeme.token) ↔ k ≤ front.length := by
  constructor
  · intro hviable
    by_contra hlong
    -- what is viable is so from its start on, and the token behind `front` is part of it
    cases back with
    | nil =>
      rw [List.append_nil] at hk
      exact hlong hk
    | cons x rest =>
      obtain ⟨j, rfl⟩ : ∃ j, k = front.length + (j + 1) := ⟨k - front.length - 1, by omega⟩
      rw [List.take_length_add_append, List.take_succ_cons, List.map_append, List.map_cons,
        ← List.singleton_append, ← List.append_assoc] at hviable
      exact hback x rest rfl hviable.of_append
  · intro hshort
    rw [List.take_append_of_le_length hshort]
    have hsplit := List.take_append_drop k front
    rw [← hsplit, List.map_append] at hfront
    exact hfront.of_append

namespace StopsAt

variable {size : ℕ} {front : List Lexeme} {r : Reader}
  (h : (front.map Lexeme.token).foldlM Reader.step Reader.start = some r)
include h

theorem of_token {x : Lexeme} (rest : List Lexeme) (hstep : r.step x.token = none) :
    StopsAt size (front ++ x :: rest) front.length x.span ("Unexpected " ++ x.token.shown)
      r.expected where
  viable_iff := by
    refine viable_take_iff ((Reader.viable_iff _).mpr ⟨r, h⟩) fun y after heq => ?_
    obtain ⟨rfl, -⟩ := List.cons.inj heq
    rw [Reader.viable_concat_iff h, hstep]
    exact Bool.false_ne_true
  at_token := by
    intro y after heq
    rw [List.drop_left] at heq
    obtain ⟨rfl, -⟩ := List.cons.inj heq
    exact ⟨rfl, rfl⟩
  at_end := by
    intro heq
    rw [List.drop_left] at heq
    cases heq
  mem_expected_iff := by
    rw [List.take_left]
    exact Reader.mem_expected_viable_iff h

theorem of_end (hvalue : r.value? = none) :
    StopsAt size front front.length ⟨size, size⟩ "Unexpected end of input" r.expected where
  viable_iff := by
    have hviable : ∀ k ≤ (front ++ []).length,
        Viable (((front ++ []).take k).map Lexeme.token) ↔ k ≤ front.length :=
      viable_take_iff ((Reader.viable_iff _).mpr ⟨r, h⟩) nofun
    rwa [List.append_nil] at hviable
  at_token := by
    intro y after heq
    rw [List.drop_length] at heq
    cases heq
  at_end := by
    intro _
    rw [Reader.sentence_iff h, hvalue]
    exact ⟨Bool.false_ne_true, rfl, rfl⟩
  mem_expected_iff := by
    rw [List.take_length]
    exact Reader.mem_expected_viable_iff h

end StopsAt

/-- the furthest of some failures are at `place`, and `expected` is what was expected at any of
them -/
structure Failure.Furthest (fs : List Failure) (place : List Lexeme)
    (expected : List String) : Prop where
  reached : ∃ f ∈ fs, f.rest = place
  upto : ∀ f ∈ fs, f.rest = place ∨ place.length < f.rest.length
  mem_iff : ∀ text, text ∈ expected ↔ ∃ f ∈ fs, f.rest = place ∧ text ∈ f.expected

/-- A text with tokens that is no formula has its error where its longest viable part ends: at the
first token that no formula goes on with, or at the end. The error names this token and lists the
punctuation that could stand in its place. Of all failures of the alternatives that are tried, those
at this place are the furthest, and what is listed is what one of them has missed. -/
theorem Formula.read_error_located (s : String) (ls : List Lexeme) (hlex : Lexeme.lex s = .ok ls)
    (hnone : ∀ f, Formula.read s ≠ .ok f) :
    ∃ n span reason expected, Formula.read s = .error (.malformed span reason expected) ∧
      StopsAt s.utf8ByteSize ls n span reason expected ∧
      Failure.Furthest (Parser.whole (ls.length + 1) ls).1 (ls.drop n) expected := by
  have hread : Formula.read s = Reader.start.run s.utf8ByteSize ls := by
    rw [Formula.read_eq_run, hlex]
    rfl
  rcases Parser.whole_outcome ls with
    ⟨fs, f, rest, -, hrun⟩ | ⟨fs, r, behind, hwhole, hreach, hrefuses, hvalue, hmissed, hmem⟩
  · exact absurd (hread.trans (hrun _)) (hnone f)
  · obtain ⟨front, rfl, hr⟩ := hreach.exists_front
    have hfurthest : Failure.Furthest fs ((front ++ behind).drop front.length) r.expected := by
      rw [List.drop_left]
      exact ⟨hmem, hmissed.upto, hmissed.mem_iff⟩
    rw [hread, hreach.run_eq, Reader.run_of_refuses hrefuses hvalue, hwhole]
    cases behind with
    | nil =>
      rw [List.append_nil] at hfurthest ⊢
      exact ⟨front.length, _, _, _, rfl, StopsAt.of_end hr (hvalue rfl), hfurthest⟩
    | cons x rest =>
      exact ⟨front.length, _, _, _, rfl, StopsAt.of_token hr rest (hrefuses x rfl), hfurthest⟩

theorem Formula.read_error_located_open : Lexeme.lex "f(a b" = .ok [⟨.name "f", ⟨0, 1⟩⟩,
      ⟨.opening, ⟨1, 2⟩⟩, ⟨.name "a", ⟨2, 3⟩⟩, ⟨.name "b", ⟨4, 5⟩⟩] ∧
    (∀ f, Formula.read "f(a b" ≠ .ok f) ∧
    ∃ n span reason expected, Formula.read "f(a b" = .error (.malformed span reason expected) ∧
      StopsAt 5 [⟨.name "f", ⟨0, 1⟩⟩, ⟨.opening, ⟨1, 2⟩⟩, ⟨.name "a", ⟨2, 3⟩⟩,
        ⟨.name "b", ⟨4, 5⟩⟩] n span reason expected ∧ expected = ["'('", "'.'", "','", "')'"] := by
  have hlex : Lexeme.lex "f(a b" = .ok [⟨.name "f", ⟨0, 1⟩⟩, ⟨.opening, ⟨1, 2⟩⟩,
      ⟨.name "a", ⟨2, 3⟩⟩, ⟨.name "b", ⟨4, 5⟩⟩] := by
    simp [Lexeme.lex, Lexeme.lexFrom, Lexeme.munch, Lexeme.isGap, Lexeme.startsName,
      Lexeme.continuesName, Lexeme.byteSize, Except.map, Char.isAlpha]
    decide
  have hnone : ∀ f, Formula.read "f(a b" ≠ .ok f := by
    intro f h
    rw [Formula.read_eq_run, hlex] at h
    cases h
  obtain ⟨n, span, reason, expected, herror, hstops, -⟩ := Formula.read_error_located _ _ hlex hnone
  refine ⟨hlex, hnone, n, span, reason, expected, herror, hstops, ?_⟩
  rw [Formula.read_eq_run, hlex] at herror
  cases herror
  rfl

end Figures
