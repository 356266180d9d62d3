import Figures.Proofs.Formula.Parser
import Mathlib.Algebra.Order.Group.Int

/-!
# Punctuation of formulas

* `Token.Begins`, `Token.Finishes`   the tokens at the start and at the end of a formula
* `nesting`                          how many parentheses are open
* `Punctuated`                       commas stand between formulas, parentheses are balanced
* `Reader.moves_of_step`             what one token does to a reader
* `Reader.punctuated_of_run`         what is read as a formula is punctuated
-/

namespace Figures

namespace Token

def Begins : Token → Prop
  | .name _ | .number _ | .text _ => True
  | _ => False

def Finishes : Token → Prop
  | .name _ | .number _ | .text _ | .closing => True
  | _ => False

def weight : Token → ℤ
  | .opening => 1
  | .closing => -1
  | _ => 0

end Token

/-- the parentheses opened and not closed -/
def nesting : List Token → ℤ
  | [] => 0
  | t :: ts => t.weight + nesting ts

/-- A comma has the end of a formula before it and the start of one behind it; no parenthesis closes
before it opens, and all are closed at the end. -/
structure Punctuated (ts : List Token) : Prop where
  commas : ∀ before after, ts = before ++ .comma :: after →
    (∃ front t, before = front ++ [t] ∧ t.Finishes) ∧ ∃ t rest, after = t :: rest ∧ t.Begins
  opened : ∀ before after, ts = before ++ after → 0 ≤ nesting before
  closed : nesting ts = 0

namespace Reader

/-- the innermost formula may end here -/
def Settled (r : Reader) : Prop :=
  match r.awaiting with
  | .afterHead _ | .afterSegment _ | .afterValue _ => True
  | _ => False

/-- what a token does to a reader: it opens or closes calls as its weight says, and commas lead from
the end of a formula to the start of another -/
structure Moves (r : Reader) (t : Token) (next : Reader) : Prop where
  pending : (next.pending.length : ℤ) = r.pending.length + t.weight
  settles : next.Settled → t.Finishes
  begins : r.awaiting = .formula → t.Begins
  comma : t = .comma → r.Settled ∧ next.awaiting = .formula

theorem moves_of_begin {r next : Reader} {t : Token}
    (h : (begin? t).map (⟨·, r.pending⟩) = some next) : Moves r t next := by
  obtain ⟨awaiting, hbegin, rfl⟩ := Option.map_eq_some_iff.mp h
  cases t with
  | name s => exact ⟨by simp [Token.weight], fun _ => trivial, fun _ => trivial, nofun⟩
  | number x => exact ⟨by simp [Token.weight], fun _ => trivial, fun _ => trivial, nofun⟩
  | text s => exact ⟨by simp [Token.weight], fun _ => trivial, fun _ => trivial, nofun⟩
  | _ => exact absurd hbegin nofun

theorem moves_of_follow {r next : Reader} {t : Token} {value : Formula} (hr : r.Settled)
    (h : follow value r.pending t = some next) : Moves r t next := by
  have hbegins : r.awaiting = .formula → t.Begins := by
    intro hformula
    rw [Settled, hformula] at hr
    exact hr.elim
  obtain ⟨awaiting, pending⟩ := r
  cases pending with
  | nil => exact absurd h nofun
  | cons p rest =>
    cases t with
    | comma =>
      obtain rfl := Option.some.inj h
      exact ⟨by simp [Token.weight], False.elim, hbegins, fun _ => ⟨hr, rfl⟩⟩
    | closing =>
      obtain rfl := Option.some.inj h
      exact ⟨by simp [Token.weight], fun _ => trivial, hbegins, nofun⟩
    | _ => exact absurd h nofun

theorem moves_of_step {r next : Reader} {t : Token} (h : r.step t = some next) :
    Moves r t next := by
  obtain ⟨awaiting, pending⟩ := r
  cases awaiting with
  | formula => exact moves_of_begin h
  | argument =>
    cases t with
    | closing =>
      cases pending with
      | nil => exact absurd h nofun
      | cons p rest =>
        obtain rfl := Option.some.inj h
        exact ⟨by simp [Token.weight], fun _ => trivial, nofun, nofun⟩
    | _ => exact moves_of_begin h
  | afterHead name =>
    cases t with
    | opening =>
      obtain rfl := Option.some.inj h
      exact ⟨by simp [Token.weight], False.elim, nofun, nofun⟩
    | dot =>
      obtain rfl := Option.some.inj h
      exact ⟨by simp [Token.weight], False.elim, nofun, nofun⟩
    | _ => exact moves_of_follow trivial h
  | segment segments =>
    cases t with
    | name s =>
      obtain rfl := Option.some.inj h
      exact ⟨by simp [Token.weight], fun _ => trivial, nofun, nofun⟩
    | number x =>
      obtain ⟨s, -, rfl⟩ := Option.map_eq_some_iff.mp h
      exact ⟨by simp [Token.weight], fun _ => trivial, nofun, nofun⟩
    | _ => exact absurd h nofun
  | afterSegment segments =>
    cases t with
    | dot =>
      obtain rfl := Option.some.inj h
      exact ⟨by simp [Token.weight], False.elim, nofun, nofun⟩
    | _ => exact moves_of_follow trivial h
  | afterValue value => exact moves_of_follow trivial h

/-- the calls open behind some tokens are those whose parentheses they leave open -/
theorem pending_of_foldlM {r last : Reader} {ts : List Token}
    (h : ts.foldlM step r = some last) :
    (last.pending.length : ℤ) = r.pending.length + nesting ts := by
  induction ts generalizing r with
  | nil =>
    obtain rfl := Option.some.inj h
    simp [nesting]
  | cons t rest ih =>
    rw [List.foldlM_cons] at h
    obtain ⟨next, hnext, hrest⟩ := Option.bind_eq_some_iff.mp h
    have hstep := (moves_of_step hnext).pending
    have hlast := ih hrest
    rw [nesting]
    omega

/-- a reader behind the end of a formula has read the last token of one, or nothing -/
theorem finishes_of_foldlM {r last : Reader} {ts : List Token} (h : ts.foldlM step r = some last)
    (hr : ¬ r.Settled) (hlast : last.Settled) : ∃ front t, ts = front ++ [t] ∧ t.Finishes := by
  rcases List.eq_nil_or_concat ts with rfl | ⟨front, t, rfl⟩
  · obtain rfl := Option.some.inj h
    exact absurd hlast hr
  · rw [List.concat_eq_append, List.foldlM_append] at h
    obtain ⟨before, -, hstep⟩ := Option.bind_eq_some_iff.mp h
    rw [List.foldlM_cons] at hstep
    obtain ⟨next, hnext, hrest⟩ := Option.bind_eq_some_iff.mp hstep
    obtain rfl := Option.some.inj hrest
    exact ⟨front, t, List.concat_eq_append, (moves_of_step hnext).settles hlast⟩

theorem run_eq_ok_iff_foldlM (size : ℕ) (r : Reader) (ls : List Lexeme) (e : Formula) :
    r.run size ls = .ok e
      ↔ ∃ last, (ls.map (·.token)).foldlM step r = some last ∧ last.value? = some e := by
  induction ls generalizing r with
  | nil =>
    rw [run, List.map_nil, List.foldlM_nil]
    cases hvalue : r.value? with
    | none => simp [hvalue]
    | some f => simp [hvalue]
  | cons x rest ih =>
    rw [run, List.map_cons, List.foldlM_cons]
    cases hstep : r.step x.token with
    | none => simp
    | some next => exact ih next

theorem value?_eq_some {r : Reader} {e : Formula} (h : r.value? = some e) :
    r.pending = [] ∧ r.awaiting ≠ .formula := by
  obtain ⟨awaiting, pending⟩ := r
  cases pending with
  | nil =>
    refine ⟨rfl, ?_⟩
    rintro rfl
    exact absurd h nofun
  | cons p rest => exact absurd h nofun

theorem punctuated_of_run {size : ℕ} {ls : List Lexeme} {e : Formula}
    (h : start.run size ls = .ok e) : Punctuated (ls.map (·.token)) := by
  obtain ⟨last, hread, hvalue⟩ := (run_eq_ok_iff_foldlM size start ls e).mp h
  obtain ⟨hpending, hformula⟩ := value?_eq_some hvalue
  constructor
  case commas =>
    intro before after hts
    rw [hts, List.foldlM_append] at hread
    obtain ⟨r, hbefore, hrest⟩ := Option.bind_eq_some_iff.mp hread
    rw [List.foldlM_cons] at hrest
    obtain ⟨next, hnext, hafter⟩ := Option.bind_eq_some_iff.mp hrest
    -- the step over the comma says what the readers on either side of it have read and await
    obtain ⟨hsettled, hawaits⟩ := (moves_of_step hnext).comma rfl
    refine ⟨finishes_of_foldlM hbefore id hsettled, ?_⟩
    cases after with
    | nil =>
      obtain rfl := Option.some.inj hafter
      exact absurd hawaits hformula
    | cons t rest =>
      rw [List.foldlM_cons] at hafter
      obtain ⟨behind, hbehind, -⟩ := Option.bind_eq_some_iff.mp hafter
      exact ⟨t, rest, rfl, (moves_of_step hbehind).begins hawaits⟩
  case opened =>
    intro before after hts
    rw [hts, List.foldlM_append] at hread
    obtain ⟨r, hbefore, -⟩ := Option.bind_eq_some_iff.mp hread
    have hcount : (r.pending.length : ℤ) = ([] : List Pending).length + nesting before :=
      pending_of_foldlM hbefore
    rw [List.length_nil] at hcount
    omega
  case closed =>
    have hcount : (last.pending.length : ℤ) = ([] : List Pending).length + nesting _ :=
      pending_of_foldlM hread
    rw [hpending, List.length_nil] at hcount
    omega

end Reader

end Figures
