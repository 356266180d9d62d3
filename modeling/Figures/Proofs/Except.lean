/-!
# Steps that may fail

* `ok_of_isOk`      what is no error is a result
* `ok_of_bind`      what comes of two steps comes of the second, from what comes of the first
* `error_of_bind`   an error of two steps is one of the first, or one of the second behind the first
* `exists_of_mapM`  every result of a list comes from one of its members
* `error_of_map`    what is done to the result leaves the error
* `Gives Q x`       what comes of `x`, if anything does, satisfies `Q`
-/

namespace Figures

variable {ε α β : Type} {x : Except ε α} {f : α → Except ε β}

theorem ok_of_isOk (h : x.isOk = true) : ∃ a, x = .ok a := by
  cases x with
  | error e => cases h
  | ok a => exact ⟨a, rfl⟩

theorem ok_of_toOption {a : α} (h : x.toOption = some a) : x = .ok a := by
  cases x with
  | error e => cases h
  | ok b => exact congrArg Except.ok (Option.some.inj h)

theorem ok_of_bind {b : β} (h : (x >>= f) = .ok b) : ∃ a, x = .ok a ∧ f a = .ok b := by
  cases x with
  | error e => cases h
  | ok a => exact ⟨a, rfl, h⟩

theorem error_of_bind {e : ε} (h : (x >>= f) = .error e) :
    x = .error e ∨ ∃ a, x = .ok a ∧ f a = .error e := by
  cases x with
  | error d =>
    cases h
    exact .inl rfl
  | ok a => exact .inr ⟨a, rfl, h⟩

theorem exists_of_mapM {l : List α} {bs : List β} (h : l.mapM f = .ok bs) :
    ∀ b ∈ bs, ∃ a ∈ l, f a = .ok b := by
  induction l generalizing bs with
  | nil =>
    cases h
    nofun
  | cons a l ih =>
    rw [List.mapM_cons] at h
    obtain ⟨first, hfirst, h⟩ := ok_of_bind h
    obtain ⟨rest, hrest, h⟩ := ok_of_bind h
    cases h
    intro b hb
    rcases List.mem_cons.mp hb with rfl | hb
    · exact ⟨a, List.mem_cons_self, hfirst⟩
    · obtain ⟨c, hc, hcb⟩ := ih hrest b hb
      exact ⟨c, List.mem_cons_of_mem a hc, hcb⟩

theorem length_of_mapM {l : List α} {bs : List β} (h : l.mapM f = .ok bs) :
    bs.length = l.length := by
  induction l generalizing bs with
  | nil =>
    cases h
    rfl
  | cons a l ih =>
    rw [List.mapM_cons] at h
    obtain ⟨first, -, h⟩ := ok_of_bind h
    obtain ⟨rest, hrest, h⟩ := ok_of_bind h
    cases h
    rw [List.length_cons, List.length_cons, ih hrest]

theorem ok_of_map {g : α → β} {b : β} (h : x.map g = .ok b) : ∃ a, x = .ok a ∧ g a = b := by
  cases x with
  | error e => cases h
  | ok a =>
    cases h
    exact ⟨a, rfl, rfl⟩

theorem error_of_map {g : α → β} {e : ε} (h : x.map g = .error e) : x = .error e := by
  cases x with
  | error d =>
    cases h
    rfl
  | ok a => cases h

theorem ok_of_mapError {δ : Type} {g : ε → δ} {a : α} (h : x.mapError g = .ok a) : x = .ok a := by
  cases x with
  | error e => cases h
  | ok b =>
    cases h
    rfl

theorem error_of_mapError {δ : Type} {g : ε → δ} {d : δ} (h : x.mapError g = .error d) :
    ∃ e, x = .error e ∧ g e = d := by
  cases x with
  | error e =>
    cases h
    exact ⟨e, rfl, rfl⟩
  | ok a => cases h

/-- what comes of `x`, if anything does, satisfies `Q` -/
def Gives (Q : α → Prop) (x : Except ε α) : Prop := ∀ a, x = .ok a → Q a

namespace Gives

variable {Q : β → Prop}

theorem ok {b : β} (h : Q b) : Gives Q (.ok b : Except ε β) := fun _ heq => Except.ok.inj heq ▸ h

theorem pure {b : β} (h : Q b) : Gives Q (Pure.pure b : Except ε β) := ok h

theorem error (e : ε) : Gives Q (.error e) := nofun

theorem bind (h : ∀ a, x = .ok a → Gives Q (f a)) : Gives Q (x >>= f) := by
  intro b hb
  obtain ⟨a, ha, hb⟩ := ok_of_bind hb
  exact h a ha b hb

theorem ite {c : Prop} [Decidable c] {x y : Except ε β} (hx : c → Gives Q x)
    (hy : ¬ c → Gives Q y) : Gives Q (if c then x else y) := by
  split
  · rename_i hc
    exact hx hc
  · rename_i hc
    exact hy hc

end Gives

end Figures
