import Figures.Proofs.Formula.Parser
import Figures.Proofs.Number.Whole

/-!
# Derivations of formulas

    formula := name '(' [formula (',' formula)*] ')' | path | number | text
    path    := name ('.' (name | place))*

* `PathKey`, `Derivation`         the trees of the grammar
* `Derivation.tokens`, `formula`  the tokens that a tree derives, and the formula it stands for
* `Derivation.Ends`               what may stand behind a formula without being read as part of it
* `Derivation.readable`           the tokens of a formula followed by such tokens give the tree back
-/

namespace Figures

/-- a segment behind the first name of a path; a place is a number that is a natural number -/
inductive PathKey where
  | name (s : String)
  | place (x : Float) (n : ℕ) (h : IsCount x n)

namespace PathKey

def token : PathKey → Token
  | .name s => .name s
  | .place x _ _ => .number x

/-- a place in decimal, capped to 64 bits -/
def shown : PathKey → String
  | .name s => s
  | .place _ n _ => Nat.repr (min word64 n)

theorem token_injective {s t : PathKey} (h : s.token = t.token) : s = t := by
  cases s with
  | name a =>
    cases t with
    | name b => rw [Token.name.inj h]
    | place y n hy => exact absurd h nofun
  | place x m hx =>
    cases t with
    | name b => exact absurd h nofun
    | place y n hy =>
      obtain rfl := Token.number.inj h
      obtain rfl := hx.unique hy
      rfl

end PathKey

inductive Derivation where
  | call (name : String) (args : List Derivation)
  | path (head : String) (tail : List PathKey)
  | number (x : Float)
  | text (s : String)

namespace Derivation

def dotted : List PathKey → List Token
  | [] => []
  | s :: rest => .dot :: s.token :: dotted rest

mutual

def tokens : Derivation → List Token
  | .call name args => .name name :: .opening :: (listed args ++ [.closing])
  | .path head tail => .name head :: dotted tail
  | .number x => [.number x]
  | .text s => [.text s]

def listed : List Derivation → List Token
  | [] => []
  | d :: rest => d.tokens ++ further rest

/-- the tokens of later arguments, a comma before each -/
def further : List Derivation → List Token
  | [] => []
  | d :: rest => .comma :: (d.tokens ++ further rest)

end

mutual

def formula : Derivation → Formula
  | .call name args => .call name (formulas args)
  | .path head tail => .path (head :: tail.map PathKey.shown)
  | .number x => .number x
  | .text s => .text s

def formulas : List Derivation → List Formula
  | [] => []
  | d :: rest => d.formula :: formulas rest

end

/-! ### unique readability -/

/-- nothing at the start of `rest` continues the formula of `d` -/
def Ends (d : Derivation) (rest : List Token) : Prop :=
  match d with
  | .path _ [] => rest.head? ≠ some .dot ∧ rest.head? ≠ some .opening
  | .path _ _ => rest.head? ≠ some .dot
  | _ => True

theorem ends_nil (d : Derivation) : d.Ends [] := by
  cases d with
  | path head tail => cases tail <;> simp [Ends]
  | _ => trivial

theorem Ends.head_ne_dot {head : String} {tail : List PathKey} {rest : List Token}
    (h : (path head tail).Ends rest) : rest.head? ≠ some .dot := by
  cases tail with
  | nil => exact h.1
  | cons s more => exact h

theorem ends_further (d : Derivation) (ds : List Derivation) (rest : List Token) :
    d.Ends (further ds ++ .closing :: rest) := by
  have hdot : (further ds ++ .closing :: rest).head? ≠ some .dot := by
    cases ds <;> simp [further]
  have hopening : (further ds ++ .closing :: rest).head? ≠ some .opening := by
    cases ds <;> simp [further]
  cases d with
  | path head tail =>
    cases tail with
    | nil => exact ⟨hdot, hopening⟩
    | cons s more => exact hdot
  | _ => trivial

theorem dotted_readable {tail tail' : List PathKey} {rest rest' : List Token}
    (hrest : rest.head? ≠ some .dot) (hrest' : rest'.head? ≠ some .dot)
    (h : dotted tail ++ rest = dotted tail' ++ rest') : tail = tail' ∧ rest = rest' := by
  induction tail generalizing tail' with
  | nil =>
    cases tail' with
    | nil => exact ⟨rfl, h⟩
    | cons s more' =>
      rw [show rest = _ from h] at hrest
      exact absurd rfl hrest
  | cons s more ih =>
    cases tail' with
    | nil =>
      rw [show rest' = _ from h.symm] at hrest'
      exact absurd rfl hrest'
    | cons s' more' =>
      obtain ⟨hs, hmore⟩ := List.cons.inj (List.cons.inj h).2
      obtain ⟨rfl, hrests⟩ := ih hmore
      exact ⟨by rw [PathKey.token_injective hs], hrests⟩

theorem tokens_append_ne_closing (d : Derivation) (rest after : List Token) :
    d.tokens ++ rest ≠ .closing :: after := by
  cases d <;> simp [tokens]

/-- calls and paths both begin with a name; the token behind it tells them apart -/
theorem path_ne_call {head f : String} {tail : List PathKey} {args : List Derivation}
    {rest rest' : List Token} (h : (path head tail).Ends rest) :
    (path head tail).tokens ++ rest ≠ (call f args).tokens ++ rest' := by
  intro heq
  have hbehind : dotted tail ++ rest = .opening :: (listed args ++ [.closing] ++ rest') := by
    simpa [tokens] using (List.cons.inj heq).2
  cases tail with
  | nil =>
    rw [show rest = _ from hbehind] at h
    exact h.2 rfl
  | cons s more => exact absurd (List.cons.inj hbehind).1 nofun

mutual

/-- the tokens of a formula that ends there give its tree back -/
theorem readable (d d' : Derivation) (rest rest' : List Token) (hrest : d.Ends rest)
    (hrest' : d'.Ends rest') (h : d.tokens ++ rest = d'.tokens ++ rest') :
    d = d' ∧ rest = rest' := by
  -- the induction is on the first tree; the tokens make the second one follow it
  match d, d' with
  | .call f args, .call f' args' =>
    rw [tokens, tokens] at h
    simp only [List.cons_append, List.append_assoc, List.cons.injEq, Token.name.injEq,
      true_and, List.nil_append] at h
    obtain ⟨hname, hargs⟩ := h
    obtain ⟨hlist, hrests⟩ := listed_readable args args' rest rest' hargs
    exact ⟨by rw [hname, hlist], hrests⟩
  | .call f args, .path head tail =>
    exact absurd h.symm (path_ne_call hrest')
  | .path head tail, .call f args =>
    exact absurd h (path_ne_call hrest)
  | .path head tail, .path head' tail' =>
    rw [tokens, tokens] at h
    obtain ⟨hhead, htail⟩ := List.cons.inj h
    obtain ⟨hsegments, hrests⟩ := dotted_readable hrest.head_ne_dot hrest'.head_ne_dot htail
    exact ⟨by rw [Token.name.inj hhead, hsegments], hrests⟩
  | .number x, .number y =>
    obtain ⟨hx, hrests⟩ := List.cons.inj h
    exact ⟨by rw [Token.number.inj hx], hrests⟩
  | .text s, .text t =>
    obtain ⟨hs, hrests⟩ := List.cons.inj h
    exact ⟨by rw [Token.text.inj hs], hrests⟩
  | .call _ _, .number _ | .call _ _, .text _ | .path _ _, .number _ | .path _ _, .text _
  | .number _, .call _ _ | .number _, .path _ _ | .number _, .text _
  | .text _, .call _ _ | .text _, .path _ _ | .text _, .number _ =>
    exact absurd (List.cons.inj h).1 nofun

theorem listed_readable (ds ds' : List Derivation) (rest rest' : List Token)
    (h : listed ds ++ .closing :: rest = listed ds' ++ .closing :: rest') :
    ds = ds' ∧ rest = rest' := by
  match ds, ds' with
  | [], [] =>
    rw [listed] at h
    exact ⟨rfl, (List.cons.inj h).2⟩
  | [], d' :: more' =>
    rw [listed, listed, List.append_assoc] at h
    exact absurd h.symm (tokens_append_ne_closing d' _ _)
  | d :: more, [] =>
    rw [listed, listed, List.append_assoc] at h
    exact absurd h (tokens_append_ne_closing d _ _)
  | d :: more, d' :: more' =>
    rw [listed, listed, List.append_assoc, List.append_assoc] at h
    obtain ⟨rfl, hmore⟩ := readable d d' _ _ (ends_further d more rest)
      (ends_further d' more' rest') h
    obtain ⟨rfl, hrests⟩ := further_readable more more' rest rest' hmore
    exact ⟨rfl, hrests⟩

theorem further_readable (ds ds' : List Derivation) (rest rest' : List Token)
    (h : further ds ++ .closing :: rest = further ds' ++ .closing :: rest') :
    ds = ds' ∧ rest = rest' := by
  match ds, ds' with
  | [], [] =>
    rw [further] at h
    exact ⟨rfl, (List.cons.inj h).2⟩
  | [], d' :: more' =>
    rw [further, further] at h
    exact absurd (List.cons.inj h).1 nofun
  | d :: more, [] =>
    rw [further, further] at h
    exact absurd (List.cons.inj h).1 nofun
  | d :: more, d' :: more' =>
    rw [further, further, List.cons_append, List.cons_append, List.append_assoc,
      List.append_assoc] at h
    obtain ⟨rfl, hmore⟩ := readable d d' _ _ (ends_further d more rest)
      (ends_further d' more' rest') (List.cons.inj h).2
    obtain ⟨rfl, hrests⟩ := further_readable more more' rest rest' hmore
    exact ⟨rfl, hrests⟩

end

theorem tokens_injective {d d' : Derivation} (h : d.tokens = d'.tokens) : d = d' :=
  (readable d d' [] [] (ends_nil d) (ends_nil d') (by rw [h])).1

/-- what stands behind a formula that ends there is not read -/
theorem not_derived_of_ends {d d' : Derivation} {rest : List Token} (hends : d.Ends rest)
    (hne : rest ≠ []) : d'.tokens ≠ d.tokens ++ rest := by
  intro h
  have hrest := (readable d d' rest [] hends (ends_nil d') (by rw [← h, List.append_nil])).2
  exact hne hrest

end Derivation

end Figures
