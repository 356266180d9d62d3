import Figures.Proofs.Formula.Derivation
import Figures.Proofs.Formula.Punctuation

/-!
# What a reader still has to read

* `Reader.Closes`          the tokens that lead from a formula inside open calls to the end
* `Reader.Completes`       the tokens that lead from a state of the reader to the end
* `Reader.completes_cons_iff`  one token on: the state behind it has the rest to read
* `Reader.run_eq_ok_iff`   a run gives a formula for the tokens that complete its state, and for no
                           others
* `Formula.read_exact`     a text is read as a formula if its tokens have a derivation of it, which
                           is their only one
-/

namespace Figures

open Figures.Derivation (dotted listed further formulas)
open Figures.Parser (place?)

namespace Reader

theorem place?_eq_some_iff (x : Float) (s : String) :
    place? x = some s ↔ ∃ n, ∃ h : IsCount x n, (PathKey.place x n h).shown = s := by
  have hplace : (0.0 ≤ x && isWhole x) = true ↔ ∃ n, IsCount x n := by
    rw [Bool.and_eq_true, decide_eq_true_iff, isCount_iff]
  rw [place?]
  split
  · rename_i hcount
    obtain ⟨n, hn⟩ := hplace.mp hcount
    rw [toCount_of_isCount word64 hn, Option.some.injEq]
    constructor
    · intro h
      exact ⟨n, hn, h⟩
    · rintro ⟨m, hm, h⟩
      rw [hn.unique hm]
      exact h
  · rename_i hcount
    refine iff_of_false nofun ?_
    rintro ⟨n, hn, -⟩
    exact hcount (hplace.mpr ⟨n, hn⟩)

/-- the tokens `ts` lead from the formula `value` inside the open calls to the formula `e` -/
def Closes : List Pending → Formula → List Token → Formula → Prop
  | [], value, ts, e => ts = [] ∧ value = e
  | p :: rest, value, ts, e => ∃ more after, ts = further more ++ .closing :: after ∧
      Closes rest (.call p.name (p.args.reverse ++ value :: formulas more)) after e

/-- the tokens `ts` lead from the start of a formula inside the open calls to `e` -/
def Begins (pending : List Pending) (ts : List Token) (e : Formula) : Prop :=
  ∃ (d : Derivation) (after : List Token),
    ts = d.tokens ++ after ∧ Closes pending d.formula after e

/-- the tokens `ts` lead from the end of a segment to `e`; `segments` are those so far -/
def Continues (pending : List Pending) (segments : List String) (ts : List Token) (e : Formula) :
    Prop :=
  ∃ tail after, ts = dotted tail ++ after ∧
    Closes pending (.path (segments ++ tail.map PathKey.shown)) after e

/-- the tokens `ts` lead from the state `r` to the formula `e` -/
def Completes (r : Reader) (ts : List Token) (e : Formula) : Prop :=
  match r.awaiting with
  | .formula => Begins r.pending ts e
  | .argument => Begins r.pending ts e ∨ ∃ p rest after, r.pending = p :: rest ∧
      ts = .closing :: after ∧ Closes rest (.call p.name []) after e
  | .afterHead name => Continues r.pending [name] ts e ∨ ∃ args after,
      ts = .opening :: (listed args ++ .closing :: after) ∧
        Closes r.pending (.call name (formulas args)) after e
  | .segment segments => ∃ s after, ts = PathKey.token s :: after ∧
      Continues r.pending (segments.reverse ++ [s.shown]) after e
  | .afterSegment segments => Continues r.pending segments.reverse ts e
  | .afterValue value => Closes r.pending value ts e

/-! ### at the end -/

theorem closes_nil_iff (pending : List Pending) (value e : Formula) :
    Closes pending value [] e ↔ pending = [] ∧ value = e := by
  cases pending with
  | nil => simp [Closes]
  | cons p rest =>
    refine iff_of_false ?_ nofun
    rintro ⟨more, after, h, -⟩
    cases more <;> exact absurd h nofun

theorem begins_nil (pending : List Pending) (e : Formula) : ¬ Begins pending [] e := by
  rintro ⟨d, after, h, -⟩
  cases d <;> exact absurd h nofun

theorem continues_nil_iff (pending : List Pending) (segments : List String) (e : Formula) :
    Continues pending segments [] e ↔ pending = [] ∧ Formula.path segments = e := by
  constructor
  · rintro ⟨tail, after, h, hclose⟩
    cases tail with
    | nil =>
      rw [show after = [] from h.symm, List.map_nil, List.append_nil] at hclose
      exact (closes_nil_iff _ _ _).mp hclose
    | cons s more => exact absurd h nofun
  · intro h
    exact ⟨[], [], rfl, by rw [List.map_nil, List.append_nil]; exact (closes_nil_iff _ _ _).mpr h⟩

theorem completes_nil_iff (r : Reader) (e : Formula) : r.Completes [] e ↔ r.value? = some e := by
  obtain ⟨awaiting, pending⟩ := r
  cases awaiting with
  | formula => exact iff_of_false (begins_nil _ _) (by cases pending <;> simp [value?])
  | argument =>
    refine iff_of_false ?_ (by cases pending <;> simp [value?])
    rintro (h | ⟨p, rest, after, -, h, -⟩)
    · exact begins_nil _ _ h
    · cases h
  | afterHead name =>
    have hcall : ¬ ∃ args after, [] = Token.opening :: (listed args ++ .closing :: after) ∧
        Closes pending (.call name (formulas args)) after e := by
      rintro ⟨args, after, h, -⟩
      cases h
    show Continues pending [name] [] e ∨ _ ↔ _
    rw [or_iff_left hcall, continues_nil_iff]
    cases pending <;> simp [value?]
  | segment segments =>
    refine iff_of_false ?_ (by cases pending <;> simp [value?])
    rintro ⟨s, after, h, -⟩
    cases h
  | afterSegment segments =>
    show Continues pending segments.reverse [] e ↔ _
    rw [continues_nil_iff]
    cases pending <;> simp [value?]
  | afterValue value =>
    show Closes pending value [] e ↔ _
    rw [closes_nil_iff]
    cases pending <;> simp [value?]

/-! ### one token on -/

theorem closes_cons_iff (pending : List Pending) (value : Formula) (t : Token) (ts : List Token)
    (e : Formula) : Closes pending value (t :: ts) e
      ↔ ∃ next, follow value pending t = some next ∧ next.Completes ts e := by
  cases pending with
  | nil =>
    refine iff_of_false ?_ ?_
    · rintro ⟨h, -⟩
      exact absurd h nofun
    · rintro ⟨next, h, -⟩
      exact absurd h nofun
  | cons p rest =>
    constructor
    · rintro ⟨more, after, h, hclose⟩
      cases more with
      | nil =>
        obtain ⟨rfl, rfl⟩ := List.cons.inj h
        exact ⟨_, rfl, by rwa [List.reverse_cons]⟩
      | cons d more =>
        obtain ⟨rfl, hts⟩ := List.cons.inj h
        refine ⟨_, rfl, d, further more ++ .closing :: after, ?_, more, after, rfl, ?_⟩
        · rw [hts, ← List.append_assoc]
          rfl
        · rw [List.reverse_cons, List.append_assoc, List.singleton_append]
          exact hclose
    · rintro ⟨next, hnext, hcomplete⟩
      cases t with
      | comma =>
        obtain rfl := Option.some.inj hnext
        obtain ⟨d, -, rfl, more, after, rfl, hclose⟩ := hcomplete
        refine ⟨d :: more, after, ?_, ?_⟩
        · rw [further, List.cons_append, List.append_assoc]
        · rw [List.reverse_cons, List.append_assoc, List.singleton_append] at hclose
          exact hclose
      | closing =>
        obtain rfl := Option.some.inj hnext
        refine ⟨[], ts, rfl, ?_⟩
        have hclose : Closes rest (.call p.name (value :: p.args).reverse) ts e := hcomplete
        rwa [List.reverse_cons] at hclose
      | _ => exact absurd hnext nofun

theorem begins_cons_iff (pending : List Pending) (t : Token) (ts : List Token) (e : Formula) :
    Begins pending (t :: ts) e
      ↔ ∃ next : Reader, (begin? t).map (⟨·, pending⟩) = some next ∧ next.Completes ts e := by
  constructor
  · rintro ⟨d, after, h, hclose⟩
    cases d with
    | call name args =>
      obtain ⟨rfl, hts⟩ := List.cons.inj h
      refine ⟨_, rfl, Or.inr ⟨args, after, ?_, hclose⟩⟩
      rw [hts, List.append_eq, List.cons_append, List.append_assoc, List.singleton_append]
    | path head tail =>
      obtain ⟨rfl, hts⟩ := List.cons.inj h
      exact ⟨_, rfl, Or.inl ⟨tail, after, hts, hclose⟩⟩
    | number x =>
      obtain ⟨rfl, rfl⟩ := List.cons.inj h
      exact ⟨_, rfl, hclose⟩
    | text s =>
      obtain ⟨rfl, rfl⟩ := List.cons.inj h
      exact ⟨_, rfl, hclose⟩
  · rintro ⟨next, hnext, hcomplete⟩
    cases t with
    | name s =>
      obtain rfl := Option.some.inj hnext
      rcases hcomplete with ⟨tail, after, rfl, hclose⟩ | ⟨args, after, rfl, hclose⟩
      · exact ⟨.path s tail, after, rfl, hclose⟩
      · refine ⟨.call s args, after, ?_, hclose⟩
        rw [Derivation.tokens]
        simp only [List.cons_append, List.append_assoc, List.nil_append]
    | number x =>
      obtain rfl := Option.some.inj hnext
      exact ⟨.number x, ts, rfl, hcomplete⟩
    | text s =>
      obtain rfl := Option.some.inj hnext
      exact ⟨.text s, ts, rfl, hcomplete⟩
    | _ => exact absurd hnext nofun

theorem continues_dot_iff (pending : List Pending) (segments : List String) (ts : List Token)
    (e : Formula) : Continues pending segments (.dot :: ts) e
      ↔ Completes ⟨.segment segments.reverse, pending⟩ ts e := by
  constructor
  · rintro ⟨tail, after, h, hclose⟩
    cases tail with
    | nil =>
      rw [show after = .dot :: ts from h.symm, closes_cons_iff] at hclose
      obtain ⟨next, hnext, -⟩ := hclose
      cases pending <;> exact absurd hnext nofun
    | cons s tail =>
      obtain ⟨-, rfl⟩ := List.cons.inj h
      refine ⟨s, dotted tail ++ after, rfl, tail, after, rfl, ?_⟩
      rw [List.reverse_reverse, List.append_assoc, List.singleton_append]
      exact hclose
  · rintro ⟨s, -, rfl, tail, after, rfl, hclose⟩
    rw [List.reverse_reverse, List.append_assoc, List.singleton_append] at hclose
    exact ⟨s :: tail, after, rfl, hclose⟩

theorem continues_cons_iff (pending : List Pending) (segments : List String) (t : Token)
    (ts : List Token) (e : Formula) (ht : t ≠ .dot) :
    Continues pending segments (t :: ts) e
      ↔ ∃ next, follow (.path segments) pending t = some next ∧ next.Completes ts e := by
  rw [← closes_cons_iff]
  constructor
  · rintro ⟨tail, after, h, hclose⟩
    cases tail with
    | nil =>
      rw [show after = t :: ts from h.symm, List.map_nil, List.append_nil] at hclose
      exact hclose
    | cons s tail => exact absurd (List.cons.inj h).1 ht
  · intro hclose
    refine ⟨[], t :: ts, rfl, ?_⟩
    rwa [List.map_nil, List.append_nil]

theorem completes_argument_iff (pending : List Pending) (name : String) (ts : List Token)
    (e : Formula) : Completes ⟨.argument, ⟨name, []⟩ :: pending⟩ ts e
      ↔ ∃ args after, ts = listed args ++ .closing :: after ∧
        Closes pending (.call name (formulas args)) after e := by
  constructor
  · rintro (⟨d, -, rfl, more, after, rfl, hclose⟩ | ⟨p, rest, after, hpending, rfl, hclose⟩)
    · refine ⟨d :: more, after, ?_, hclose⟩
      rw [listed, List.append_assoc]
    · obtain ⟨rfl, rfl⟩ := List.cons.inj hpending
      exact ⟨[], after, rfl, hclose⟩
  · rintro ⟨args, after, rfl, hclose⟩
    cases args with
    | nil => exact Or.inr ⟨_, _, after, rfl, rfl, hclose⟩
    | cons d more =>
      refine Or.inl ⟨d, further more ++ .closing :: after, ?_, more, after, rfl, hclose⟩
      rw [listed, List.append_assoc]

theorem step_argument_iff (pending : List Pending) (t : Token) (ts : List Token) (e : Formula) :
    Completes ⟨.argument, pending⟩ (t :: ts) e
      ↔ ∃ next, step ⟨.argument, pending⟩ t = some next ∧ next.Completes ts e := by
  -- no formula begins with a closing parenthesis, so it can only end the arguments
  by_cases ht : t = .closing
  · subst ht
    have hbegins : ¬ Begins pending (.closing :: ts) e := by
      rw [begins_cons_iff]
      rintro ⟨next, h, -⟩
      exact absurd h nofun
    show _ ∨ _ ↔ _
    rw [or_iff_right hbegins]
    cases pending with
    | nil =>
      refine iff_of_false ?_ ?_
      · rintro ⟨p, rest, after, h, -⟩
        exact absurd h nofun
      · rintro ⟨next, h, -⟩
        exact absurd h nofun
    | cons p rest =>
      constructor
      · rintro ⟨q, more, after, hpending, hts, hclose⟩
        obtain ⟨rfl, rfl⟩ := List.cons.inj hpending
        obtain ⟨-, rfl⟩ := List.cons.inj hts
        exact ⟨_, rfl, hclose⟩
      · rintro ⟨next, hnext, hclose⟩
        obtain rfl := Option.some.inj hnext
        exact ⟨p, rest, ts, rfl, rfl, hclose⟩
  · have hend : ¬ ∃ p rest after, pending = p :: rest ∧ t :: ts = .closing :: after ∧
        Closes rest (.call p.name []) after e := by
      rintro ⟨p, rest, after, -, h, -⟩
      exact ht (List.cons.inj h).1
    have hstep : step ⟨.argument, pending⟩ t = (begin? t).map (⟨·, pending⟩) := by
      cases t with
      | closing => exact absurd rfl ht
      | _ => rfl
    show _ ∨ _ ↔ _
    rw [or_iff_left hend, begins_cons_iff, hstep]

theorem step_afterHead_iff (name : String) (pending : List Pending) (t : Token) (ts : List Token)
    (e : Formula) : Completes ⟨.afterHead name, pending⟩ (t :: ts) e
      ↔ ∃ next, step ⟨.afterHead name, pending⟩ t = some next ∧ next.Completes ts e := by
  -- the token behind a name decides between a call and a path: no path goes on with a parenthesis
  by_cases hopening : t = .opening
  · subst hopening
    have hpath : ¬ Continues pending [name] (.opening :: ts) e := by
      rw [continues_cons_iff pending [name] .opening ts e nofun]
      rintro ⟨next, h, -⟩
      cases pending <;> exact absurd h nofun
    show _ ∨ _ ↔ _
    rw [or_iff_right hpath]
    constructor
    · rintro ⟨args, after, hts, hclose⟩
      exact ⟨_, rfl, (completes_argument_iff pending name ts e).mpr
        ⟨args, after, (List.cons.inj hts).2, hclose⟩⟩
    · rintro ⟨next, hnext, hcomplete⟩
      obtain rfl := Option.some.inj hnext
      obtain ⟨args, after, rfl, hclose⟩ := (completes_argument_iff pending name ts e).mp hcomplete
      exact ⟨args, after, rfl, hclose⟩
  · have hcall : ¬ ∃ args after, t :: ts = .opening :: (listed args ++ .closing :: after) ∧
        Closes pending (.call name (formulas args)) after e := by
      rintro ⟨args, after, h, -⟩
      exact hopening (List.cons.inj h).1
    show _ ∨ _ ↔ _
    rw [or_iff_left hcall]
    by_cases hdot : t = .dot
    · subst hdot
      rw [continues_dot_iff]
      simp [step]
    · have hstep : step ⟨.afterHead name, pending⟩ t = follow (.path [name]) pending t := by
        cases t with
        | opening => exact absurd rfl hopening
        | dot => exact absurd rfl hdot
        | _ => rfl
      rw [continues_cons_iff pending [name] t ts e hdot, hstep]

theorem step_segment_iff (segments : List String) (pending : List Pending) (t : Token)
    (ts : List Token) (e : Formula) : Completes ⟨.segment segments, pending⟩ (t :: ts) e
      ↔ ∃ next, step ⟨.segment segments, pending⟩ t = some next ∧ next.Completes ts e := by
  constructor
  · rintro ⟨s, after, h, hcontinue⟩
    obtain ⟨rfl, rfl⟩ := List.cons.inj h
    rw [← List.reverse_cons] at hcontinue
    cases s with
    | name a => exact ⟨_, rfl, hcontinue⟩
    | place x n hn =>
      have hplace := (place?_eq_some_iff x _).mpr ⟨n, hn, rfl⟩
      refine ⟨⟨.afterSegment (PathKey.shown (.place x n hn) :: segments), pending⟩, ?_, hcontinue⟩
      show (place? x).map _ = _
      rw [hplace]
      rfl
  · rintro ⟨next, hnext, hcomplete⟩
    cases t with
    | name a =>
      obtain rfl := Option.some.inj hnext
      refine ⟨.name a, ts, rfl, ?_⟩
      rw [← List.reverse_cons]
      exact hcomplete
    | number x =>
      obtain ⟨s, hplace, rfl⟩ := Option.map_eq_some_iff.mp hnext
      obtain ⟨n, hn, rfl⟩ := (place?_eq_some_iff x s).mp hplace
      refine ⟨.place x n hn, ts, rfl, ?_⟩
      rw [← List.reverse_cons]
      exact hcomplete
    | _ => exact absurd hnext nofun

theorem step_afterSegment_iff (segments : List String) (pending : List Pending) (t : Token)
    (ts : List Token) (e : Formula) : Completes ⟨.afterSegment segments, pending⟩ (t :: ts) e
      ↔ ∃ next, step ⟨.afterSegment segments, pending⟩ t = some next ∧ next.Completes ts e := by
  show Continues pending segments.reverse (t :: ts) e ↔ _
  by_cases hdot : t = .dot
  · subst hdot
    rw [continues_dot_iff, List.reverse_reverse]
    simp [step]
  · have hstep : step ⟨.afterSegment segments, pending⟩ t
        = follow (.path segments.reverse) pending t := by
      cases t with
      | dot => exact absurd rfl hdot
      | _ => rfl
    rw [continues_cons_iff pending segments.reverse t ts e hdot, hstep]

theorem completes_cons_iff (r : Reader) (t : Token) (ts : List Token) (e : Formula) :
    r.Completes (t :: ts) e ↔ ∃ next, r.step t = some next ∧ next.Completes ts e := by
  obtain ⟨awaiting, pending⟩ := r
  cases awaiting with
  | formula => exact begins_cons_iff pending t ts e
  | argument => exact step_argument_iff pending t ts e
  | afterHead name => exact step_afterHead_iff name pending t ts e
  | segment segments => exact step_segment_iff segments pending t ts e
  | afterSegment segments => exact step_afterSegment_iff segments pending t ts e
  | afterValue value => exact closes_cons_iff pending value t ts e

theorem run_eq_ok_iff (size : ℕ) (r : Reader) (ls : List Lexeme) (e : Formula) :
    r.run size ls = .ok e ↔ r.Completes (ls.map (·.token)) e := by
  -- every token changes the state, so the induction on the tokens is for all states
  induction ls generalizing r with
  | nil =>
    rw [run, List.map_nil, completes_nil_iff]
    cases hvalue : r.value? with
    | none => simp
    | some f => simp
  | cons x rest ih =>
    rw [run, List.map_cons, completes_cons_iff]
    cases hstep : r.step x.token with
    | none => simp
    | some next =>
      dsimp only
      rw [ih next]
      simp

theorem completes_start_iff (ts : List Token) (e : Formula) :
    start.Completes ts e ↔ ∃ d : Derivation, d.tokens = ts ∧ d.formula = e := by
  constructor
  · rintro ⟨d, after, rfl, rfl, rfl⟩
    exact ⟨d, (List.append_nil _).symm, rfl⟩
  · rintro ⟨d, rfl, rfl⟩
    exact ⟨d, [], (List.append_nil _).symm, rfl, rfl⟩

end Reader

/-! ### derivations are unique -/

namespace Derivation

/-- a call without arguments inside `n` calls -/
def nested (name : String) : ℕ → Derivation
  | 0 => .call name []
  | n + 1 => .call name [nested name n]

theorem tokens_nested (name : String) (n : ℕ) : (nested name n).tokens
    = (List.replicate (n + 1) [Token.name name, .opening]).flatten
      ++ List.replicate (n + 1) .closing := by
  induction n with
  | zero => rfl
  | succ n ih =>
    have hclosing : List.replicate (n + 2) Token.closing
        = List.replicate (n + 1) Token.closing ++ [.closing] := List.replicate_succ'
    have hopening : (List.replicate (n + 2) [Token.name name, .opening]).flatten
        = .name name :: .opening :: (List.replicate (n + 1) [.name name, .opening]).flatten := rfl
    rw [nested, tokens, listed, further, ih, List.append_nil, hopening, hclosing]
    simp only [List.cons_append, List.append_assoc]

end Derivation

/-- A text is read as a formula if and only if its tokens derive it, and the derivation is then the
only one. Calls nest to any depth and may be empty; commas and parentheses stand as in `Punctuated`;
nothing is left behind a formula that ends. -/
theorem Formula.read_exact (s : String) (ls : List Lexeme) (h : Lexeme.lex s = .ok ls) :
    (∀ e, Formula.read s = .ok e
      ↔ ∃ d : Derivation, d.tokens = ls.map (·.token) ∧ d.formula = e) ∧
    (∀ e, Formula.read s = .ok e → ∃! d : Derivation, d.tokens = ls.map (·.token)) ∧
    (∀ name n, ls.map (·.token) = (List.replicate (n + 1) [Token.name name, .opening]).flatten
        ++ List.replicate (n + 1) .closing →
      Formula.read s = .ok (Derivation.nested name n).formula) ∧
    (∀ e, Formula.read s = .ok e → Punctuated (ls.map (·.token))) ∧
    (∀ (d : Derivation) (rest : List Token), ls.map (·.token) = d.tokens ++ rest → d.Ends rest →
      rest ≠ [] → ∀ e, Formula.read s ≠ .ok e) := by
  have hread : Formula.read s = Reader.start.run s.utf8ByteSize ls := by
    rw [Formula.read_eq_run, h]
    rfl
  have hderives : ∀ e, Formula.read s = .ok e
      ↔ ∃ d : Derivation, d.tokens = ls.map (·.token) ∧ d.formula = e := by
    intro e
    rw [hread, Reader.run_eq_ok_iff, Reader.completes_start_iff]
  refine ⟨hderives, ?_, ?_, ?_, ?_⟩
  · intro e he
    obtain ⟨d, hd, -⟩ := (hderives e).mp he
    exact ⟨d, hd, fun d' hd' => Derivation.tokens_injective (hd'.trans hd.symm)⟩
  · intro name n hnested
    exact (hderives _).mpr ⟨.nested name n, (Derivation.tokens_nested name n).trans
      hnested.symm, rfl⟩
  · intro e he
    exact Reader.punctuated_of_run (hread ▸ he)
  · intro d rest hrest hends hne e he
    obtain ⟨d', hd', -⟩ := (hderives e).mp he
    exact Derivation.not_derived_of_ends hends hne (hd'.trans hrest)

theorem Formula.read_exact_place : Lexeme.lex "f(a.1)" = .ok [⟨.name "f", ⟨0, 1⟩⟩,
      ⟨.opening, ⟨1, 2⟩⟩, ⟨.name "a", ⟨2, 3⟩⟩, ⟨.dot, ⟨3, 4⟩⟩, ⟨.number 1.0, ⟨4, 5⟩⟩,
      ⟨.closing, ⟨5, 6⟩⟩] ∧
    Formula.read "f(a.1)" = .ok (.call "f" [.path ["a", "1"]]) := by
  have hlex : Lexeme.lex "f(a.1)" = .ok [⟨.name "f", ⟨0, 1⟩⟩,
      ⟨.opening, ⟨1, 2⟩⟩, ⟨.name "a", ⟨2, 3⟩⟩, ⟨.dot, ⟨3, 4⟩⟩, ⟨.number 1.0, ⟨4, 5⟩⟩,
      ⟨.closing, ⟨5, 6⟩⟩] := by
    have hnumber : Lexeme.numberOf false ['1'] [] = 1.0 := by decide
    simp [Lexeme.lex, Lexeme.lexFrom, Lexeme.munch, Lexeme.isGap, Lexeme.startsName,
      Lexeme.continuesName, Lexeme.isQuote, Lexeme.places, Lexeme.byteSize, Except.map,
      Char.isAlpha, hnumber]
    decide
  have hone : IsCount 1.0 1 := by
    refine ⟨⟨false, hiddenBit, -52⟩, by decide, ?_⟩
    norm_num [Binary.value, hiddenBit]
  exact ⟨hlex, ((Formula.read_exact _ _ hlex).1 _).mpr
    ⟨.call "f" [.path "a" [.place 1.0 1 hone]], rfl, rfl⟩⟩

end Figures
