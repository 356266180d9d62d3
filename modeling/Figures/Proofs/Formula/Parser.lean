import Figures.Proofs.Formula.Machine
import Mathlib.Algebra.Order.Group.Int

/-!
# The parser and the machine

* `Missed h failures expected`   nothing has failed behind `h`, and at `h` all that is `expected`
                                 was missed
* `Missed.foldl_merge`           then the furthest failure is that at `h`
* `Reader.Reaches`               what the machine comes to
* `Parser.formula_outcome`       a formula is parsed up to where the machine ends it; or else the
                                 furthest failure is where the machine is stuck, with all that it
                                 expects there
* `Parser.whole_outcome`         so it is with all tokens of a text
* `Formula.parse_eq`             they are parsed as the machine reads them
* `Formula.read_eq_run`          and so is a text

A name may be read as the start of a call, and once more as that of a path. If the call is not
closed, the path is of no use: it ends in front of a parenthesis, and behind a formula there is none
that opens. So the failures inside of the call are the furthest.
-/

namespace Figures

/-! ### the furthest failure -/

/-- nothing has failed behind `h`, and at `h` all that is `expected` was missed -/
inductive Missed (h : List Lexeme) : List Failure → List String → Prop
  | nil : Missed h [] []
  | before {f : Failure} {fs : List Failure} {expected : List String}
      (hf : h.length < f.rest.length) (hfs : Missed h fs expected) : Missed h (f :: fs) expected
  | here (missed : List String) {fs : List Failure} {expected : List String}
      (hfs : Missed h fs expected) : Missed h (⟨h, missed⟩ :: fs) (missed ++ expected)

namespace Missed

variable {h h' : List Lexeme} {fs gs : List Failure} {expected more missed : List String}

theorem one (h : List Lexeme) (missed : List String) : Missed h [⟨h, missed⟩] missed := by
  simpa using here missed (nil (h := h))

theorem ahead (hlt : h.length < h'.length) (missed : List String) : Missed h [⟨h', missed⟩] [] :=
  before hlt nil

theorem of_forall (hfs : ∀ f ∈ fs, h.length < f.rest.length) : Missed h fs [] := by
  induction fs with
  | nil => exact nil
  | cons f fs ih =>
    exact before (hfs f List.mem_cons_self) (ih fun g hg => hfs g (List.mem_cons_of_mem f hg))

theorem append (ha : Missed h fs expected) (hb : Missed h gs more) :
    Missed h (fs ++ gs) (expected ++ more) := by
  induction ha with
  | nil => exact hb
  | before hf _ ih => exact before hf ih
  | here missed _ ih =>
    rw [List.append_assoc]
    exact here missed ih

theorem further (ha : Missed h fs expected) (hlt : h'.length < h.length) : Missed h' fs [] := by
  induction ha with
  | nil => exact nil
  | before hf _ ih => exact before (hlt.trans hf) ih
  | here missed _ ih => exact before hlt ih

theorem upto (ha : Missed h fs expected) : ∀ f ∈ fs, f.rest = h ∨ h.length < f.rest.length := by
  induction ha with
  | nil => exact fun f hf => absurd hf List.not_mem_nil
  | before hf _ ih => exact List.forall_mem_cons.mpr ⟨.inr hf, ih⟩
  | here _ _ ih => exact List.forall_mem_cons.mpr ⟨.inl rfl, ih⟩

theorem mem_iff (ha : Missed h fs expected) (text : String) :
    text ∈ expected ↔ ∃ f ∈ fs, f.rest = h ∧ text ∈ f.expected := by
  induction ha with
  | nil => simp
  | @before f fs expected hf _ ih =>
    have hne : f.rest ≠ h := fun heq => lt_irrefl _ (heq ▸ hf)
    simp [hne, ih]
  | here missed _ ih => simp [ih]

theorem foldl_merge_here (ha : Missed h fs expected) (hnodup : (missed ++ expected).Nodup) :
    fs.foldl Failure.merge ⟨h, missed⟩ = ⟨h, missed ++ expected⟩ := by
  induction ha generalizing missed with
  | nil => rw [List.foldl_nil, List.append_nil]
  | before hf _ ih =>
    rw [List.foldl_cons, Failure.merge, if_pos hf, ih hnodup]
  | here next _ ih =>
    rw [← List.append_assoc] at hnodup
    have hnew : next.filter (fun e => !missed.contains e) = next := by
      refine List.filter_eq_self.mpr fun e he => ?_
      have hapart := (List.nodup_append.mp (List.nodup_append.mp hnodup).1).2.2
      simpa using fun hmem => hapart e hmem e he rfl
    rw [List.foldl_cons, Failure.merge, if_neg (lt_irrefl _), if_neg (lt_irrefl _)]
    dsimp only
    rw [hnew, ih hnodup, List.append_assoc]

/-- of all failures, the furthest are those at `h` -/
theorem foldl_merge (ha : Missed h fs expected) (hnodup : expected.Nodup) {first : Failure}
    (hfirst : h.length < first.rest.length ∧ (∃ f ∈ fs, f.rest = h) ∨ first = ⟨h, []⟩) :
    fs.foldl Failure.merge first = ⟨h, expected⟩ := by
  rcases hfirst with ⟨hlt, hmem⟩ | rfl
  · induction ha generalizing first with
    | nil => simp at hmem
    | @before f fs expected hf hfs ih =>
      have hrest : ∃ g ∈ fs, g.rest = h := by
        obtain ⟨g, hg, hgh⟩ := hmem
        rcases List.mem_cons.mp hg with rfl | hg
        · exact absurd (hgh ▸ hf) (lt_irrefl _)
        · exact ⟨g, hg, hgh⟩
      have hmerged : h.length < (first.merge f).rest.length := by
        rw [Failure.merge]
        split
        · exact hlt
        · split
          · exact hf
          · exact hlt
      exact ih hnodup hmerged hrest
    | here missed hfs ih =>
      have hlast : first.merge ⟨h, missed⟩ = ⟨h, missed⟩ := by
        rw [Failure.merge, if_neg (Nat.lt_asymm hlt), if_pos hlt]
      rw [List.foldl_cons, hlast, foldl_merge_here hfs hnodup]
  · exact foldl_merge_here ha hnodup

end Missed

/-! ### the machine on its way -/

namespace Reader

/-- from `r`, the machine comes to `last` and has `behind` left -/
inductive Reaches : Reader → List Lexeme → Reader → List Lexeme → Prop
  | here (r : Reader) (ls : List Lexeme) : Reaches r ls r ls
  | step {r next last : Reader} {x : Lexeme} {ls behind : List Lexeme}
      (hstep : r.step x.token = some next) (hnext : Reaches next ls last behind) :
      Reaches r (x :: ls) last behind

/-- the next token is refused, or there is none -/
def Refuses (r : Reader) (ls : List Lexeme) : Prop := ∀ x ∈ ls.head?, r.step x.token = none

variable {r next last : Reader} {ls mid behind : List Lexeme}

theorem Reaches.trans (h : Reaches r ls next mid) (hnext : Reaches next mid last behind) :
    Reaches r ls last behind := by
  induction h with
  | here => exact hnext
  | step hstep _ ih => exact .step hstep (ih hnext)

theorem Reaches.length_le (h : Reaches r ls last behind) : behind.length ≤ ls.length := by
  induction h with
  | here => exact le_rfl
  | step _ _ ih => exact ih.trans (Nat.le_succ _)

theorem Reaches.exists_front (h : Reaches r ls last behind) :
    ∃ front, ls = front ++ behind ∧ (front.map Lexeme.token).foldlM Reader.step r = some last := by
  induction h with
  | here r ls => exact ⟨[], rfl, rfl⟩
  | @step _ _ _ x _ _ hstep _ ih =>
    obtain ⟨front, rfl, hfront⟩ := ih
    refine ⟨x :: front, rfl, ?_⟩
    rw [List.map_cons, List.foldlM_cons, hstep]
    exact hfront

theorem Reaches.run_eq (h : Reaches r ls last behind) (size : ℕ) :
    r.run size ls = last.run size behind := by
  induction h with
  | here => rfl
  | step hstep _ ih => rw [run, hstep, ← ih]

theorem run_of_refuses (h : r.Refuses ls) (hvalue : ls = [] → r.value? = none) (size : ℕ) :
    r.run size ls = .error (Failure.error size ⟨ls, r.expected⟩) := by
  cases ls with
  | nil => rw [run, hvalue rfl, Failure.error]
  | cons x ls => rw [run, h x rfl, Failure.error]

/-- nothing is listed twice -/
theorem expected_nodup (r : Reader) : r.expected.Nodup := by
  obtain ⟨awaiting, pending⟩ := r
  cases awaiting <;> cases pending <;> simp [expected, followers, Token.shown]

/-- inside of whatever calls, the machine is stuck at `behind`, and expects the same -/
structure Stuck (r : List Pending → Reader) (behind : List Lexeme)
    (expected : List String) : Prop where
  refuses : ∀ calls, (r calls).Refuses behind
  value : ∀ calls, (r calls).value? = none
  expects : ∀ calls, (r calls).expected = expected

/-- the machine is behind the formula `f`, which does not go on with the next token -/
structure Ends (awaiting : Awaiting) (f : Formula) (behind : List Lexeme) (expected : List String) :
    Prop where
  refuses : Refuses ⟨awaiting, []⟩ behind
  value : value? ⟨awaiting, []⟩ = some f
  expects : ∀ calls, Reader.expected ⟨awaiting, calls⟩ = expected ++ followers calls

/-- inside of a call, a formula that ends is followed by what stands between arguments -/
theorem Ends.step_eq {awaiting : Awaiting} {f : Formula} {x : Lexeme} {expected : List String}
    (h : Ends awaiting f (x :: ls) expected) (p : Pending) (calls : List Pending) :
    step ⟨awaiting, p :: calls⟩ x.token = follow f (p :: calls) x.token := by
  have hrefuses := h.refuses x rfl
  have hvalue := h.value
  cases awaiting with
  | formula => cases hvalue
  | argument => cases hvalue
  | segment segments => cases hvalue
  | afterHead name =>
    cases hvalue
    cases hx : x.token with
    | opening => exact absurd (hx ▸ hrefuses) nofun
    | dot => exact absurd (hx ▸ hrefuses) nofun
    | _ => rfl
  | afterSegment segments =>
    cases hvalue
    cases hx : x.token with
    | dot => exact absurd (hx ▸ hrefuses) nofun
    | _ => rfl
  | afterValue value =>
    cases hvalue
    rfl

end Reader

/-! ### what the combinators do -/

namespace Parser

variable {α β : Type} {p q : Parser α} {ls rest : List Lexeme} {fs gs : List Failure}

theorem bind_of_some {f : α → Parser β} {a : α} (h : p ls = (fs, some (a, rest))) :
    (p >>= f) ls = (fs ++ (f a rest).1, (f a rest).2) := by
  simp only [Bind.bind, h]

theorem bind_of_none {f : α → Parser β} (h : p ls = (fs, none)) : (p >>= f) ls = (fs, none) := by
  simp only [Bind.bind, h]

theorem either_of_some {a : α} (h : p ls = (fs, some (a, rest))) :
    either p q ls = (fs, some (a, rest)) := by
  rw [either, h]

theorem either_of_none (h : p ls = (fs, none)) : either p q ls = (fs ++ (q ls).1, (q ls).2) := by
  rw [either, h]

theorem just_of_eq {t : Token} {x : Lexeme} (h : x.token = t) :
    just t (x :: ls) = ([], some ((), ls)) :=
  if_pos h

theorem just_of_ne {t : Token} (h : ∀ x ∈ ls.head?, x.token ≠ t) :
    just t ls = ([⟨ls, [t.shown]⟩], none) := by
  cases ls with
  | nil => rfl
  | cons x ls => exact if_neg (h x rfl)

/-- one item, and the items that are repeated behind it -/
def oneAnd (p : Parser α) (rest : Parser (List α)) : Parser (List α) :=
  either (do return (← p) :: (← rest)) (pure [])

theorem oneAnd_of_none (items : Parser (List α)) (h : p ls = (fs, none)) :
    oneAnd p items ls = (fs, some ([], ls)) := by
  rw [oneAnd, either_of_none (bind_of_none h)]
  simp [pure]

theorem oneAnd_of_some {items : Parser (List α)} {a : α} {as : List α} {behind : List Lexeme}
    (h : p ls = (fs, some (a, rest))) (hrest : items rest = (gs, some (as, behind))) :
    oneAnd p items ls = (fs ++ gs, some (a :: as, behind)) := by
  have hitems : (items >>= fun as => (pure (a :: as) : Parser (List α))) rest
      = (gs, some (a :: as, behind)) := by
    rw [bind_of_some hrest]
    simp [pure]
  rw [oneAnd, either_of_some ((bind_of_some h).trans (by rw [hitems]))]

theorem repeated_succ (p : Parser α) (n : ℕ) : repeated p (n + 1) = oneAnd p (repeated p n) := rfl

theorem exists_repeated (p : Parser α) (n : ℕ) (ls : List Lexeme) :
    ∃ fs as rest, repeated p n ls = (fs, some (as, rest)) := by
  induction n generalizing ls with
  | zero => exact ⟨[], [], ls, rfl⟩
  | succ n ih =>
    rw [repeated_succ]
    rcases hp : p ls with ⟨fs, _ | ⟨a, rest⟩⟩
    · exact ⟨_, _, _, oneAnd_of_none _ hp⟩
    · obtain ⟨gs, as, behind, hrest⟩ := ih rest
      exact ⟨_, _, _, oneAnd_of_some hp hrest⟩

/-- nothing is repeated where nothing can be read; it may not even be tried -/
theorem repeated_of_none (h : p ls = (fs, none)) (n : ℕ) :
    ∃ gs, gs ⊆ fs ∧ repeated p n ls = (gs, some ([], ls)) := by
  cases n with
  | zero => exact ⟨[], List.nil_subset fs, rfl⟩
  | succ n => exact ⟨fs, List.Subset.refl fs, oneAnd_of_none _ h⟩

/-! ### arguments -/

open Reader (Reaches Refuses Stuck Ends)

def closed (items : Parser (List α)) : Parser (List α) := do
  let args ← items
  just .closing
  return args

theorem closed_of_eq {items : Parser (List α)} {args : List α} {x : Lexeme} {tail : List Lexeme}
    (h : items ls = (fs, some (args, x :: tail))) (hx : x.token = .closing) :
    closed items ls = (fs, some (args, tail)) := by
  rw [closed, bind_of_some h, bind_of_some (just_of_eq hx)]
  simp [pure]

theorem closed_of_ne {items : Parser (List α)} {args : List α}
    (h : items ls = (fs, some (args, rest))) (hne : ∀ x ∈ rest.head?, x.token ≠ .closing) :
    closed items ls = (fs ++ [⟨rest, [Token.closing.shown]⟩], none) := by
  rw [closed, bind_of_some h, bind_of_none (just_of_ne hne)]

theorem begins_or_not (t : Token) (ls : List Lexeme) :
    (∃ x tail, ls = x :: tail ∧ x.token = t) ∨ ∀ x ∈ ls.head?, x.token ≠ t := by
  by_cases h : ∃ x tail, ls = x :: tail ∧ x.token = t
  · exact .inl h
  · refine .inr fun x hx heq => ?_
    obtain ⟨tail, rfl⟩ := List.head?_eq_some_iff.mp hx
    exact h ⟨x, tail, rfl, heq⟩

theorem closed_oneAnd {items : Parser (List α)} {a : α} {as : List α} {behind : List Lexeme}
    (h : p ls = (fs, some (a, rest))) (hitems : items rest = (gs, some (as, behind))) :
    closed (oneAnd p items) ls
      = (fs ++ (closed items rest).1, (closed items rest).2.map fun r => (a :: r.1, r.2)) := by
  have hall := oneAnd_of_some h hitems
  rcases begins_or_not .closing behind with ⟨x, tail, rfl, hx⟩ | hne
  · rw [closed_of_eq hall hx, closed_of_eq hitems hx]
    rfl
  · rw [closed_of_ne hall hne, closed_of_ne hitems hne, List.append_assoc]
    rfl

/-- What becomes of a formula in front of `ls`. If the machine is stuck inside of it, there may be a
result all the same: that of a call read as a path, or of a path up to a dot without a segment. -/
inductive Outcome (ls : List Lexeme) : List Failure × Option (Formula × List Lexeme) → Prop
  | ended {awaiting : Awaiting} {f : Formula} {behind : List Lexeme} {fs : List Failure}
      {expected : List String}
      (hreach : ∀ calls, Reaches ⟨.formula, calls⟩ ls ⟨awaiting, calls⟩ behind)
      (hlt : behind.length < ls.length) (hend : Ends awaiting f behind expected)
      (hmissed : Missed behind fs expected) : Outcome ls (fs, some (f, behind))
  | stuck {r : List Pending → Reader} {behind : List Lexeme} {fs : List Failure}
      {expected : List String} {result : Option (Formula × List Lexeme)}
      (hreach : ∀ calls, Reaches ⟨.formula, calls⟩ ls (r calls) behind)
      (hstuck : Stuck r behind expected) (hmissed : Missed behind fs expected)
      (hmem : ∃ f ∈ fs, f.rest = behind)
      (hresult : ∀ f rest, result = some (f, rest) → behind.length < rest.length ∧
        ∃ x tail, rest = x :: tail ∧ (x.token = .opening ∨ x.token = .dot)) :
        Outcome ls (fs, result)

/-- What becomes of the arguments of a call to `name` behind those in `front`: `start` is where the
machine is, and `before` what has failed so far. -/
inductive Arguments (start : List Pending → Reader) (name : String) (front : List Formula)
    (before : List Failure) (ls : List Lexeme) :
    List Failure × Option (List Formula × List Lexeme) → Prop
  | closed {args : List Formula} {behind : List Lexeme} {fs : List Failure}
      (hreach : ∀ calls, Reaches (start calls) ls ⟨.afterValue (.call name (front ++ args)),
        calls⟩ behind)
      (hlt : behind.length < ls.length) (hmissed : Missed behind (before ++ fs) []) :
      Arguments start name front before ls (fs, some (args, behind))
  | stuck {r : List Pending → Reader} {behind : List Lexeme} {fs : List Failure}
      {expected : List String}
      (hreach : ∀ calls, Reaches (start calls) ls (r calls) behind)
      (hstuck : Stuck r behind expected) (hmissed : Missed behind (before ++ fs) expected)
      (hmem : ∃ f ∈ fs, f.rest = behind) : Arguments start name front before ls (fs, none)

/-- a further argument, behind a comma -/
def another (n : ℕ) : Parser Formula := do
  just .comma
  formula n

theorem separatedBy_eq (n : ℕ) : separatedBy (formula n) (just .comma) n
    = oneAnd (formula n) (repeated (another n) n) := rfl

theorem another_of_ne {n : ℕ} (h : ∀ x ∈ ls.head?, x.token ≠ .comma) :
    another n ls = ([⟨ls, [Token.comma.shown]⟩], none) := bind_of_none (just_of_ne h)

theorem another_of_eq {n : ℕ} {x : Lexeme} (h : x.token = .comma) :
    another n (x :: ls) = formula n ls := by
  rw [another, bind_of_some (just_of_eq h), List.nil_append]

/-- The machine is stuck inside of an argument. What the parser takes for one, if anything, is the
start of it: behind that stands nothing that could stand between arguments. -/
theorem arguments_of_stuck {start : List Pending → Reader} {name : String} {front : List Formula}
    {before : List Failure} {n m : ℕ} {item : Parser Formula} {r : List Pending → Reader}
    {behind : List Lexeme} {expected : List String} {result : Option (Formula × List Lexeme)}
    (hitem : item ls = (fs, result))
    (hreach : ∀ calls, Reaches (start calls) ls (r (⟨name, front.reverse⟩ :: calls)) behind)
    (hlt : behind.length < ls.length) (hstuck : Stuck r behind expected)
    (hmissed : Missed behind (before ++ fs) expected) (hmem : ∃ f ∈ fs, f.rest = behind)
    (hclosing : ∀ x ∈ ls.head?, x.token ≠ .closing)
    (hresult : ∀ f rest, result = some (f, rest) → behind.length < rest.length ∧
      ∃ x tail, rest = x :: tail ∧ (x.token = .opening ∨ x.token = .dot)) :
    Arguments start name front before ls (closed (oneAnd item (repeated (another n) m)) ls) := by
  have hstuck' : Stuck (fun calls => r (⟨name, front.reverse⟩ :: calls)) behind expected :=
    ⟨fun _ => hstuck.refuses _, fun _ => hstuck.value _, fun _ => hstuck.expects _⟩
  obtain ⟨g, hg, hgrest⟩ := hmem
  -- what fails behind the place where the machine is stuck is not as far as that
  have hall : ∀ more, (∀ f ∈ more, behind.length < f.rest.length) →
      Arguments start name front before ls (fs ++ more, none) := by
    intro more hmore
    refine .stuck hreach hstuck' ?_ ⟨g, List.mem_append_left more hg, hgrest⟩
    have hfurther := hmissed.append (.of_forall hmore)
    rwa [List.append_nil, List.append_assoc] at hfurther
  cases result with
  | none =>
    rw [closed_of_ne (oneAnd_of_none _ hitem) hclosing]
    exact hall _ (List.forall_mem_singleton.mpr hlt)
  | some result =>
    obtain ⟨f, rest⟩ := result
    obtain ⟨hrest, x, rest', rfl, hx⟩ := hresult f rest rfl
    have hother : ∀ t, t ≠ Token.opening → t ≠ Token.dot →
        ∀ y ∈ (x :: rest').head?, y.token ≠ t := by
      rintro t hopening hdot _ ⟨⟩ rfl
      exact hx.elim hopening hdot
    obtain ⟨gs, hgs, hitems⟩ := repeated_of_none
      (another_of_ne (n := n) (hother .comma nofun nofun)) m
    rw [closed_oneAnd hitem hitems, closed_of_ne hitems (hother .closing nofun nofun)]
    refine hall _ fun f hf => ?_
    rcases List.mem_append.mp hf with hf | hf
    · obtain rfl := List.mem_singleton.mp (hgs hf)
      exact hrest
    · obtain rfl := List.mem_singleton.mp hf
      exact hrest

/-- An argument behind which the arguments go on as `hmore` says. The machine is at `start` in front
of `ls`, and comes to the argument in front of `tail`; there is no end of a call in front of
`ls`. -/
theorem arguments_oneAnd {start : List Pending → Reader} {name : String} (front : List Formula)
    {before : List Failure} {tail : List Lexeme} {n m : ℕ} {item : Parser Formula}
    (hitem : item ls = formula n tail) (hitem' : Outcome tail (formula n tail))
    (hbefore : ∀ behind, behind.length < ls.length → Missed behind before [])
    (hle : tail.length ≤ ls.length) (hclosing : ∀ x ∈ ls.head?, x.token ≠ .closing)
    (hreach : ∀ calls last behind, behind.length < ls.length →
      Reaches ⟨.formula, ⟨name, front.reverse⟩ :: calls⟩ tail last behind →
        Reaches (start calls) ls last behind)
    (hstay : ∀ r behind expected, (∀ calls, Reaches ⟨.formula, calls⟩ tail (r calls) behind) →
      Stuck r behind expected → behind.length < ls.length)
    (hmore : ∀ awaiting f behind expected before', behind.length < tail.length →
      Ends awaiting f behind expected → Missed behind before' expected →
      Arguments (fun calls => ⟨awaiting, ⟨name, front.reverse⟩ :: calls⟩) name
      (front ++ [f]) before'
        behind (closed (repeated (another n) m) behind)) :
    Arguments start name front before ls (closed (oneAnd item (repeated (another n) m)) ls) := by
  generalize formula n tail = run at hitem hitem'
  cases hitem' with
  | @ended awaiting f behind fs expected hformula hlt hend hmissed =>
    obtain ⟨gs, as, rest, hitems⟩ := exists_repeated (another n) m behind
    have hbehind := hbefore behind (hlt.trans_le hle)
    have hargs := hmore awaiting f behind expected (before ++ fs) hlt hend (hbehind.append hmissed)
    rw [closed_oneAnd hitem hitems]
    generalize closed (repeated (another n) m) behind = run at hargs
    cases hargs with
    | @closed args last hs hreach' hlt' hmissed' =>
      have hlast := (hlt'.trans hlt).trans_le hle
      refine .closed (fun calls => ?_) hlast (by rwa [← List.append_assoc])
      rw [List.append_cons]
      exact hreach calls _ _ hlast ((hformula _).trans (hreach' calls))
    | @stuck r last hs expected' hreach' hstuck hmissed' hmem =>
      have hlast := ((hreach' []).length_le.trans_lt hlt).trans_le hle
      refine .stuck (fun calls => hreach calls _ _ hlast ((hformula _).trans (hreach' calls)))
        hstuck
        (by rwa [← List.append_assoc]) ?_
      obtain ⟨g, hg, hgrest⟩ := hmem
      exact ⟨g, List.mem_append_right fs hg, hgrest⟩
  | stuck hformula hstuck hmissed hmem hresult =>
    have hlt := hstay _ _ _ hformula hstuck
    have hall := (hbefore _ hlt).append hmissed
    rw [List.nil_append] at hall
    exact arguments_of_stuck hitem (fun calls => hreach calls _ _ hlt (hformula _)) hlt hstuck hall
      hmem hclosing hresult

/-- behind an argument stands neither a comma nor the end of the call -/
theorem arguments_of_neither {name : String} {awaiting : Awaiting} {f : Formula}
    {expected : List String} {front : List Formula} {before : List Failure}
    (hend : Ends awaiting f ls expected) (hbefore : Missed ls before expected)
    (hcomma : ∀ x ∈ ls.head?, x.token ≠ .comma) (hclosing : ∀ x ∈ ls.head?, x.token ≠ .closing) :
    Arguments (fun calls => ⟨awaiting, ⟨name, front.reverse⟩ :: calls⟩) name (front ++ [f])
      before ls ([⟨ls, [Token.comma.shown]⟩] ++ [⟨ls, [Token.closing.shown]⟩], none) := by
  refine .stuck (fun calls => .here _ ls) ⟨fun calls x hx => ?_, fun calls => ?_, fun calls => ?_⟩
    (hbefore.append ((Missed.one ls _).append (.one ls _)))
    ⟨_, List.mem_append_right _ List.mem_cons_self, rfl⟩
  · obtain ⟨tail, rfl⟩ := List.head?_eq_some_iff.mp hx
    have hcomma := hcomma x rfl
    have hclosing := hclosing x rfl
    rw [hend.step_eq]
    cases hx : x.token with
    | comma => exact absurd hx hcomma
    | closing => exact absurd hx hclosing
    | _ => rfl
  · cases awaiting <;> rfl
  · exact hend.expects _

/-- behind an argument in front of `ls`; each further one takes a comma at least, so `m` of them are
enough -/
theorem arguments_repeated {n : ℕ} (hformula : ∀ ls, ls.length < n → Outcome ls (formula n ls))
    (name : String) {m : ℕ} {awaiting : Awaiting} {f : Formula} {expected : List String}
    {front : List Formula} {before : List Failure} (hm : ls.length < m) (hn : ls.length ≤ n)
    (hend : Ends awaiting f ls expected) (hbefore : Missed ls before expected) :
    Arguments (fun calls => ⟨awaiting, ⟨name, front.reverse⟩ :: calls⟩) name
      (front ++ [f]) before ls
      (closed (repeated (another n) m) ls) := by
  induction m generalizing ls awaiting f expected front before with
  | zero => exact absurd hm (Nat.not_lt_zero _)
  | succ m ih =>
    rw [repeated_succ]
    rcases begins_or_not .comma ls with ⟨x, tail, rfl, hx⟩ | hcomma
    · have htail : tail.length < n := hn
      have hnext : ∀ calls, Reader.step ⟨awaiting, ⟨name, front.reverse⟩ :: calls⟩ x.token
          = some ⟨.formula, ⟨name, (front ++ [f]).reverse⟩ :: calls⟩ := by
        intro calls
        rw [hend.step_eq, hx, List.reverse_append]
        rfl
      refine arguments_oneAnd _ (another_of_eq hx) (hformula tail htail)
        (fun behind hlt => hbefore.further hlt) (Nat.le_succ _) ?_
        (fun calls last behind _ h => .step (hnext calls) h)
        (fun r behind expected h _ => Nat.lt_succ_of_le (h []).length_le) ?_
      · rintro _ ⟨⟩
        rw [hx]
        exact nofun
      · exact fun awaiting' f' behind expected' before' hlt hend' hbefore' =>
          ih (hlt.trans (Nat.lt_of_succ_lt_succ hm)) (hlt.le.trans htail.le) hend' hbefore'
    · have hitems := oneAnd_of_none (repeated (another n) m) (another_of_ne (n := n) hcomma)
      rcases begins_or_not .closing ls with ⟨x, tail, rfl, hx⟩ | hclosing
      · rw [closed_of_eq hitems hx]
        refine .closed (fun calls => .step ?_ (.here _ tail)) (Nat.lt_succ_self _)
          ((hbefore.further (Nat.lt_succ_self _)).append (.ahead (Nat.lt_succ_self _) _))
        rw [hend.step_eq, hx]
        simp [Reader.follow]
      · rw [closed_of_ne hitems hclosing]
        exact arguments_of_neither hend hbefore hcomma hclosing

/-- where no formula begins, all alternatives fail at once -/
theorem formula_of_no_begin {n : ℕ} (h : ∀ x ∈ ls.head?, Reader.begin? x.token = none) :
    formula (n + 1) ls = ([⟨ls, []⟩, ⟨ls, []⟩, ⟨ls, []⟩, ⟨ls, []⟩], none) := by
  cases ls with
  | nil => rfl
  | cons x tail =>
    have hx := h x rfl
    obtain ⟨t, span⟩ := x
    cases t with
    | name s => exact absurd hx nofun
    | text s => exact absurd hx nofun
    | number v => exact absurd hx nofun
    | _ => rfl

theorem Reaches.argument_of_formula {calls : List Pending} {last : Reader} {behind : List Lexeme}
    (h : Reaches ⟨.formula, calls⟩ ls last behind) (hlt : behind.length < ls.length) :
    Reaches ⟨.argument, calls⟩ ls last behind := by
  cases h with
  | here => exact absurd hlt (lt_irrefl _)
  | @step _ next _ x ls _ hstep hnext =>
    refine .step ?_ hnext
    obtain ⟨t, span⟩ := x
    cases t with
    | closing => exact absurd hstep nofun
    | _ => exact hstep

/-- no argument begins: the call ends here, or there is no call -/
theorem arguments_of_no_begin {n : ℕ} (name : String)
    (hbegin : ∀ x ∈ ls.head?, Reader.begin? x.token = none) :
    Arguments (fun calls => ⟨.argument, ⟨name, []⟩ :: calls⟩) name [] [] ls
      (closed (separatedBy (formula (n + 1)) (just .comma) (n + 1)) ls) := by
  have hitems := oneAnd_of_none (repeated (another (n + 1)) (n + 1))
    (formula_of_no_begin (n := n) hbegin)
  rw [separatedBy_eq]
  rcases begins_or_not .closing ls with ⟨x, tail, rfl, hx⟩ | hclosing
  · have hlt := Nat.lt_succ_self tail.length
    refine (closed_of_eq hitems hx) ▸ .closed (fun calls => .step ?_ (.here _ tail)) hlt
      (.before hlt (.before hlt (.before hlt (.ahead hlt []))))
    rw [hx]
    rfl
  · rw [closed_of_ne hitems hclosing]
    have hmissed := (Missed.here [] (.here [] (.here [] (.one ls [])))).append
      (.one ls [Token.closing.shown])
    refine .stuck (fun calls => .here _ ls) ⟨fun calls x hx => ?_, fun _ => rfl, fun _ => rfl⟩
      hmissed ⟨_, List.mem_cons_self, rfl⟩
    have hbegin := hbegin x hx
    have hclosing := hclosing x hx
    obtain ⟨t, span⟩ := x
    cases t with
    | closing => exact absurd rfl hclosing
    | name s => exact absurd hbegin nofun
    | text s => exact absurd hbegin nofun
    | number v => exact absurd hbegin nofun
    | _ => rfl

theorem arguments_separatedBy {n : ℕ} (hformula : ∀ ls, ls.length < n → Outcome ls (formula n ls))
    (name : String) (hn : ls.length < n) :
    Arguments (fun calls => ⟨.argument, ⟨name, []⟩ :: calls⟩) name [] [] ls
      (closed (separatedBy (formula n) (just .comma) n) ls) := by
  by_cases hbegin : ∀ x ∈ ls.head?, Reader.begin? x.token = none
  · obtain ⟨k, rfl⟩ := Nat.exists_eq_succ_of_ne_zero (Nat.ne_zero_of_lt hn)
    exact arguments_of_no_begin name hbegin
  · rw [separatedBy_eq]
    simp only [not_forall] at hbegin
    obtain ⟨x, hx, hbegin⟩ := hbegin
    obtain ⟨tail, rfl⟩ := List.head?_eq_some_iff.mp hx
    refine arguments_oneAnd [] rfl (hformula _ hn) (fun _ _ => .nil) le_rfl ?_
      (fun calls last behind hlt h => Reaches.argument_of_formula h hlt) ?_ ?_
    · rintro _ ⟨⟩ heq
      rw [heq] at hbegin
      exact hbegin rfl
    · intro r behind expected hreach hstuck
      have hrefuses := hstuck.refuses []
      have hlast := hreach []
      generalize r [] = last at hrefuses hlast
      cases hlast with
      | here => exact absurd (Option.map_eq_none_iff.mp (hrefuses x rfl)) hbegin
      | step _ hnext => exact Nat.lt_succ_of_le hnext.length_le
    · exact fun awaiting f behind expected before hlt hend hbefore =>
        arguments_repeated hformula name (hlt.trans hn) (hlt.trans hn).le hend hbefore

/-! ### paths -/

/-- What becomes of the segments of a path behind those in `front`, the last one first; `start` is
where the machine is. It is stuck behind a dot without a segment, and such a dot is not read. -/
inductive Segments (start : List Pending → Reader) (front : List String) (ls : List Lexeme) :
    List Failure × Option (List String × List Lexeme) → Prop
  | nil (hne : ∀ x ∈ ls.head?, x.token ≠ .dot) :
      Segments start front ls ([⟨ls, [Token.dot.shown]⟩], some ([], ls))
  | cons {segments : List String} {behind : List Lexeme} {fs : List Failure}
      (hreach : ∀ calls, Reaches (start calls) ls ⟨.afterSegment (segments.reverse ++ front),
        calls⟩ behind)
      (hlt : behind.length < ls.length) (hne : ∀ x ∈ behind.head?, x.token ≠ .dot)
      (hmissed : Missed behind fs [Token.dot.shown]) :
        Segments start front ls (fs, some (segments, behind))
  | stuck {segments read : List String} {x : Lexeme} {behind : List Lexeme} {fs : List Failure}
      (hreach : ∀ calls, Reaches (start calls) ls ⟨.segment read, calls⟩ behind)
      (hlt : behind.length < ls.length) (hrefuses : ∀ calls, Refuses ⟨.segment read, calls⟩ behind)
      (hmissed : Missed behind fs []) (hmem : ∃ f ∈ fs, f.rest = behind) (hx : x.token = .dot) :
      Segments start front ls (fs, some (segments, x :: behind))

theorem segment_of_ne (h : ∀ x ∈ ls.head?, x.token ≠ .dot) :
    segment ls = ([⟨ls, [Token.dot.shown]⟩], none) := bind_of_none (just_of_ne h)

/-- behind a dot there is a segment, which the machine takes too, or both fail -/
theorem segment_of_dot {x : Lexeme} (hx : x.token = .dot) (tail : List Lexeme) :
    (∃ y rest s fs, tail = y :: rest ∧ segment (x :: tail) = (fs, some (s, rest)) ∧
      Missed rest fs [] ∧ ∀ front calls, Reader.step ⟨.segment front, calls⟩ y.token
        = some ⟨.afterSegment (s :: front), calls⟩) ∨
    segment (x :: tail) = ([⟨tail, []⟩, ⟨tail, []⟩], none) ∧
      ∀ front calls, Refuses ⟨.segment front, calls⟩ tail := by
  have hsegment : segment (x :: tail) = either (select name?) (select index?) tail := by
    rw [segment, bind_of_some (just_of_eq hx), List.nil_append]
  rw [hsegment]
  cases tail with
  | nil => exact .inr ⟨rfl, fun _ _ => nofun⟩
  | cons y rest =>
    have hlt := Nat.lt_succ_self rest.length
    obtain ⟨t, span⟩ := y
    cases t with
    | name s => exact .inl ⟨_, rest, s, [], rfl, rfl, .nil, fun _ _ => rfl⟩
    | number v =>
      cases hplace : place? v with
      | some s =>
        have hmissed : Missed rest [⟨⟨.number v, span⟩ :: rest, []⟩] [] := .ahead hlt []
        refine .inl ⟨_, rest, s, _, rfl, ?_, hmissed, fun front calls => ?_⟩
        · simp [either, select, name?, index?, hplace]
        · simp [Reader.step, hplace]
      | none =>
        refine .inr ⟨by simp [either, select, name?, index?, hplace], fun front calls => ?_⟩
        rintro _ ⟨⟩
        simp [Reader.step, hplace]
    | _ =>
      refine .inr ⟨rfl, fun front calls => ?_⟩
      rintro _ ⟨⟩
      rfl

/-- each segment takes a dot at least, so `m` of them are enough -/
theorem segments_repeated {start : List Pending → Reader} {front : List String}
    (hstart : ∀ calls, (start calls).step .dot = some ⟨.segment front, calls⟩) {m : ℕ}
    (hm : ls.length < m) : Segments start front ls (repeated segment m ls) := by
  induction m generalizing ls start front with
  | zero => exact absurd hm (Nat.not_lt_zero _)
  | succ m ih =>
    rw [repeated_succ]
    rcases begins_or_not .dot ls with ⟨x, tail, rfl, hx⟩ | hne
    · have hnext : ∀ calls, (start calls).step x.token = some ⟨.segment front, calls⟩ :=
        fun calls => hx ▸ hstart calls
      rcases segment_of_dot hx tail with ⟨y, rest, s, fs, rfl, hsegment, hfs,
        hkey⟩ | ⟨hnone, hrefuses⟩
      · have hreach : ∀ calls, Reaches (start calls) (x :: y :: rest) ⟨.afterSegment (s :: front),
          calls⟩ rest :=
          fun calls => .step (hnext calls) (.step (hkey front calls) (.here _ rest))
        have hlt : rest.length < (x :: y :: rest).length := Nat.lt_succ_of_lt (Nat.lt_succ_self _)
        have hagain : ∀ calls, Reader.step ⟨.afterSegment (s :: front), calls⟩ .dot
            = some ⟨.segment (s :: front), calls⟩ := fun _ => rfl
        have hmore := ih hagain
          ((Nat.lt_succ_self rest.length).trans (Nat.lt_of_succ_lt_succ hm))
        generalize hrun : repeated segment m rest = run at hmore
        cases hmore with
        | nil hne =>
          rw [oneAnd_of_some hsegment hrun]
          exact .cons hreach hlt hne (hfs.append (.one rest _))
        | @cons segments behind gs hreach' hlt' hne hmissed =>
          rw [oneAnd_of_some hsegment hrun]
          refine .cons (fun calls => ?_) (hlt'.trans hlt) hne ((hfs.further hlt').append hmissed)
          rw [List.reverse_cons, List.append_assoc]
          exact (hreach calls).trans (hreach' calls)
        | @stuck segments read z behind gs hreach' hlt' hrefuses hmissed hmem hz =>
          rw [oneAnd_of_some hsegment hrun]
          obtain ⟨g, hg, hgrest⟩ := hmem
          exact .stuck (fun calls => (hreach calls).trans (hreach' calls)) (hlt'.trans hlt) hrefuses
            ((hfs.further hlt').append hmissed) ⟨g, List.mem_append_right fs hg, hgrest⟩ hz
      · rw [oneAnd_of_none _ hnone]
        exact .stuck (fun calls => .step (hnext calls) (.here _ tail)) (Nat.lt_succ_self _)
          (hrefuses front) (.here [] (.one tail [])) ⟨_, List.mem_cons_self, rfl⟩ hx
    · rw [oneAnd_of_none _ (segment_of_ne hne)]
      exact .nil hne

/-! ### formulas -/

theorem delimitedBy_of_eq (items : Parser (List Formula)) {x : Lexeme} (hx : x.token = .opening)
    (ls : List Lexeme) : delimitedBy items (just .opening) (just .closing) (x :: ls) =
      closed items ls := by
  rw [delimitedBy, bind_of_some (just_of_eq hx), List.nil_append]
  rfl

theorem delimitedBy_of_ne (items : Parser (List Formula)) (h : ∀ x ∈ ls.head?, x.token ≠ .opening) :
    delimitedBy items (just .opening) (just .closing) ls = ([⟨ls, [Token.opening.shown]⟩], none) :=
  bind_of_none (just_of_ne h)

theorem select_name {s : String} {span : Span} :
    select name? (⟨.name s, span⟩ :: ls) = ([], some (s, ls)) := rfl

section
variable {n : ℕ} {s : String} {span : Span}

/-- behind a name, a call is tried first -/
theorem formula_of_call {args : List Formula}
    (hargs : delimitedBy (separatedBy (formula n) (just .comma) n)
      (just .opening) (just .closing) ls = (fs, some (args, rest))) :
    formula (n + 1) (⟨.name s, span⟩ :: ls) = (fs, some (.call s args, rest)) := by
  have hcall : call (formula n) n (⟨.name s, span⟩ :: ls) = (fs, some (.call s args, rest)) := by
    rw [call, bind_of_some select_name, bind_of_some hargs]
    simp [pure]
  rw [formula, choice, either_of_some hcall]

theorem formula_of_path {segments : List String}
    (hargs : delimitedBy (separatedBy (formula n) (just .comma) n) (just .opening)
      (just .closing) ls
      = (fs, none)) (hsegments : repeated segment n ls = (gs, some (segments, rest))) :
    formula (n + 1) (⟨.name s, span⟩ :: ls) = (fs ++ gs, some (.path (s :: segments), rest)) := by
  have hcall : call (formula n) n (⟨.name s, span⟩ :: ls) = (fs, none) := by
    rw [call, bind_of_some select_name, bind_of_none hargs, List.nil_append]
  have hpath : path n (⟨.name s, span⟩ :: ls) = (gs, some (.path (s :: segments), rest)) := by
    rw [path, bind_of_some select_name, bind_of_some hsegments]
    simp [pure]
  rw [formula, choice, choice, either_of_none hcall, either_of_some hpath]

/-- a name in front of a parenthesis: if the call is not closed, it is a path that goes on with
one -/
theorem outcome_of_opening (hformula : ∀ ls, ls.length < n → Outcome ls (formula n ls)) {x : Lexeme}
    (hx : x.token = .opening) (hn : ls.length < n) :
    Outcome (⟨.name s, span⟩ :: x :: ls) (formula (n + 1) (⟨.name s, span⟩ :: x :: ls)) := by
  have hne : ∀ y ∈ (x :: ls).head?, y.token ≠ .dot := by
    rintro _ ⟨⟩
    rw [hx]
    exact nofun
  obtain ⟨gs, hgs, hsegments⟩ := repeated_of_none (segment_of_ne hne) n
  have hopen : ∀ calls, Reaches ⟨.formula, calls⟩ (⟨.name s, span⟩ :: x :: ls)
      ⟨.argument, ⟨s, []⟩ :: calls⟩ ls := fun calls => .step rfl (.step (hx ▸ rfl) (.here _ ls))
  have hargs := arguments_separatedBy hformula s hn
  have hrun := delimitedBy_of_eq (separatedBy (formula n) (just .comma) n) hx ls
  generalize closed (separatedBy (formula n) (just .comma) n) ls = run at hargs hrun
  cases hargs with
  | @closed args behind fs hreach hlt hmissed =>
    rw [formula_of_call hrun]
    exact .ended (fun calls => (hopen calls).trans (hreach calls))
      (hlt.trans (Nat.lt_succ_of_lt (Nat.lt_succ_self _))) ⟨fun _ _ => rfl, rfl,
        fun _ => rfl⟩ hmissed
  | @stuck r behind fs expected hreach hstuck hmissed hmem =>
    rw [formula_of_path hrun hsegments]
    have hlt : behind.length < (x :: ls).length := Nat.lt_succ_of_le (hreach []).length_le
    have hpath : Missed behind gs [] := .of_forall fun f hf => by
      obtain rfl := List.mem_singleton.mp (hgs hf)
      exact hlt
    obtain ⟨f, hf, hfrest⟩ := hmem
    refine .stuck (fun calls => (hopen calls).trans (hreach calls)) hstuck ?_
      ⟨f, List.mem_append_left gs hf, hfrest⟩ ?_
    · rw [← List.append_nil expected]
      exact hmissed.append hpath
    · rintro _ _ ⟨⟩
      exact ⟨hlt, x, ls, rfl, .inl hx⟩

theorem outcome_of_name (hne : ∀ x ∈ ls.head?, x.token ≠ .opening) (hn : ls.length < n) :
    Outcome (⟨.name s, span⟩ :: ls) (formula (n + 1) (⟨.name s, span⟩ :: ls)) := by
  have hhead : ∀ calls, Reaches ⟨.formula, calls⟩ (⟨.name s, span⟩ :: ls)
      ⟨.afterHead s, calls⟩ ls :=
    fun calls => .step rfl (.here _ ls)
  have hcall := delimitedBy_of_ne (separatedBy (formula n) (just .comma) n) hne
  have hlast := Nat.lt_succ_self ls.length
  have hdotted : ∀ calls, Reader.step ⟨.afterHead s, calls⟩ .dot = some ⟨.segment [s], calls⟩ :=
    fun _ => rfl
  have hsegments := segments_repeated hdotted hn
  generalize hrun : repeated segment n ls = run at hsegments
  cases hsegments with
  | nil hdot =>
    rw [formula_of_path hcall hrun]
    refine .ended hhead hlast ⟨?_, rfl, fun _ => rfl⟩ ((Missed.one ls _).append (.one ls _))
    rintro ⟨t, place⟩ hx
    cases t with
    | opening => exact absurd rfl (hne _ hx)
    | dot => exact absurd rfl (hdot _ hx)
    | _ => rfl
  | @cons segments behind gs hreach hlt hdot hmissed =>
    rw [formula_of_path hcall hrun]
    refine .ended (fun calls => (hhead calls).trans (hreach calls)) (hlt.trans hlast)
      ⟨?_, by simp [Reader.value?], fun _ => rfl⟩ ((Missed.ahead hlt _).append hmissed)
    rintro ⟨t, place⟩ hx
    cases t with
    | dot => exact absurd rfl (hdot _ hx)
    | _ => rfl
  | @stuck segments read x behind gs hreach hlt hrefuses hmissed hmem hx =>
    rw [formula_of_path hcall hrun]
    obtain ⟨f, hf, hfrest⟩ := hmem
    refine .stuck (fun calls => (hhead calls).trans (hreach calls))
      ⟨hrefuses, fun calls => by cases calls <;> rfl, fun _ => rfl⟩
        ((Missed.ahead hlt _).append hmissed)
      ⟨f, List.mem_append_right _ hf, hfrest⟩ ?_
    rintro _ _ ⟨⟩
    exact ⟨Nat.lt_succ_self _, x, behind, rfl, .inr hx⟩

/-- a formula is parsed up to where the machine ends it, or fails furthest where the machine is
stuck -/
theorem formula_outcome (hn : ls.length < n) : Outcome ls (formula n ls) := by
  induction n generalizing ls with
  | zero => exact absurd hn (Nat.not_lt_zero _)
  | succ n ih =>
    cases ls with
    | nil =>
      exact .stuck (fun calls => .here _ []) ⟨fun _ => nofun, fun calls => by cases calls <;> rfl,
        fun _ => rfl⟩
        (.here [] (.here [] (.here [] (.one [] [])))) ⟨_, List.mem_cons_self, rfl⟩ nofun
    | cons x ls =>
      have hlt := Nat.lt_succ_self ls.length
      have hls : ls.length < n := Nat.lt_of_succ_lt_succ hn
      obtain ⟨t, span⟩ := x
      cases t with
      | name s =>
        by_cases hopening : ∃ y tail, ls = y :: tail ∧ y.token = .opening
        · obtain ⟨y, tail, rfl, hy⟩ := hopening
          exact outcome_of_opening (fun _ => ih) hy ((Nat.lt_succ_self _).trans hls)
        · refine outcome_of_name (fun y hy heq => ?_) hls
          obtain ⟨tail, rfl⟩ := List.head?_eq_some_iff.mp hy
          exact hopening ⟨y, tail, rfl, heq⟩
      | number v =>
        have hreach : ∀ calls, Reaches ⟨.formula, calls⟩ (⟨.number v, span⟩ :: ls)
            ⟨.afterValue (.number v), calls⟩ ls := fun calls => .step rfl (.here _ ls)
        exact .ended hreach hlt
          ⟨fun _ _ => rfl, rfl, fun _ => rfl⟩ (.before hlt (.before hlt .nil))
      | text s =>
        have hreach : ∀ calls, Reaches ⟨.formula, calls⟩ (⟨.text s, span⟩ :: ls)
            ⟨.afterValue (.text s), calls⟩ ls := fun calls => .step rfl (.here _ ls)
        exact .ended hreach hlt
          ⟨fun _ _ => rfl, rfl, fun _ => rfl⟩ (.before hlt (.before hlt (.before hlt .nil)))
      | _ =>
        refine .stuck (fun calls => .here _ _) ⟨fun _ => ?_, fun calls => by cases calls <;> rfl,
          fun _ => rfl⟩
          (.here [] (.here [] (.here [] (.one _ [])))) ⟨_, List.mem_cons_self, rfl⟩ nofun
        rintro _ ⟨⟩
        rfl

end

/-- All tokens make a formula, which the machine reads; or the machine is stuck, and of all failures
the furthest are there. -/
theorem whole_outcome (ls : List Lexeme) :
    (∃ fs f rest, whole (ls.length + 1) ls = (fs, some (f, rest)) ∧
      ∀ size, Reader.start.run size ls = .ok f) ∨
    ∃ fs r behind, whole (ls.length + 1) ls = (fs, none) ∧ Reaches Reader.start ls r behind ∧
      r.Refuses behind ∧ (behind = [] → r.value? = none) ∧ Missed behind fs r.expected ∧
      ∃ f ∈ fs, f.rest = behind := by
  have hformula := formula_outcome (Nat.lt_succ_self ls.length)
  unfold whole
  generalize hrun : formula (ls.length + 1) ls = run at hformula
  cases hformula with
  | @ended awaiting f behind fs expected hreach hlt hend hmissed =>
    cases behind with
    | nil =>
      refine .inl ⟨_, f, [], bind_of_some hrun, fun size => ((hreach []).run_eq size).trans ?_⟩
      rw [Reader.run, hend.value]
    | cons x tail =>
      refine .inr ⟨_, _, x :: tail, bind_of_some hrun, hreach [], hend.refuses, nofun, ?_,
        ⟨_, List.mem_append_right fs List.mem_cons_self, rfl⟩⟩
      rw [hend.expects]
      exact hmissed.append (.one (x :: tail) _)
  | @stuck r behind fs expected result hreach hstuck hmissed hmem hresult =>
    have hexpected := hstuck.expects []
    cases result with
    | none =>
      exact .inr ⟨_, _, behind, bind_of_none hrun, hreach [], hstuck.refuses [],
        fun _ => hstuck.value [], hexpected ▸ hmissed, hmem⟩
    | some result =>
      obtain ⟨f, rest⟩ := result
      obtain ⟨hlt, x, tail, rfl, -⟩ := hresult f rest rfl
      obtain ⟨g, hg, hgrest⟩ := hmem
      refine .inr ⟨_, _, behind, bind_of_some hrun, hreach [], hstuck.refuses [],
        fun _ => hstuck.value [], ?_, ⟨g, List.mem_append_left _ hg, hgrest⟩⟩
      rw [hexpected, ← List.append_nil expected]
      exact hmissed.append (.ahead hlt _)

end Parser

namespace Formula

/-- **The parser reads what the machine reads**, and reports the same errors: what any of the
alternatives has missed at the furthest place is what the machine expects where it is stuck. -/
theorem parse_eq (size : ℕ) (ls : List Lexeme) : parse size ls = Reader.start.run size ls := by
  rw [parse]
  rcases Parser.whole_outcome ls with
    ⟨fs, f, rest, hwhole, hrun⟩ | ⟨fs, r, behind, hwhole, hreach, hrefuses, hvalue, hmissed, hmem⟩
  · rw [hwhole, hrun]
  · have hfirst : behind.length < ls.length ∧ (∃ f ∈ fs, f.rest = behind)
        ∨ (⟨ls, []⟩ : Failure) = ⟨behind, []⟩ := by
      cases hreach with
      | here => exact .inr rfl
      | step _ hnext => exact .inl ⟨Nat.lt_succ_of_le hnext.length_le, hmem⟩
    rw [hwhole, hreach.run_eq, Reader.run_of_refuses hrefuses hvalue]
    exact congrArg _ (congrArg _ (hmissed.foldl_merge r.expected_nodup hfirst))

theorem read_eq_run (s : String) :
    read s = Lexeme.lex s >>= fun ls => Reader.start.run s.utf8ByteSize ls := by
  rw [read]
  simp only [parse_eq]

end Formula

end Figures
