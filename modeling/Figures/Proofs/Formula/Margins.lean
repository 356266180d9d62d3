import Figures.Proofs.Formula.Blanks
import Figures.Proofs.Formula.Punctuation
import Figures.Proofs.Text.Pieces

/-!
# Blanks around a formula

* `Reader.run_error`                an error is at one of the tokens or at the end
* `Formula.readChars_front`, `readChars_front_error`    gaps and other blanks in front of a formula
* `Formula.readChars_back_of_ok`, `readChars_back_of_error`    blanks behind a formula
* `Formula.read_ok_iff`             a text is a formula if it is one without the blanks around it,
                                    and these may stand between tokens
* `Formula.read_error_iff`          when a text is no formula
* `Formula.read_trim_iff`           when a text that is no formula is none for the same reason
                                    without the blanks around it
-/

namespace Figures

namespace Reader

variable {size : ℕ} {r : Reader} {ls : List Lexeme} {e : FormulaError}

theorem run_shift (n : ℕ) (size : ℕ) (r : Reader) (ls : List Lexeme) :
    r.run (n + size) (ls.map (Lexeme.shift n)) = (r.run size ls).mapError
      (FormulaError.shift n) := by
  induction ls generalizing r with
  | nil =>
    rw [List.map_nil, run, run]
    cases r.value? <;> rfl
  | cons l ls ih =>
    rw [List.map_cons, run, run, show (l.shift n).token = l.token from rfl]
    cases r.step l.token with
    | none => rfl
    | some next => exact ih next

/-- an error is at one of the tokens, or at the end of the text -/
theorem run_error (h : r.run size ls = .error e) :
    e.Syntactic ∧ ((∃ l ∈ ls, e.span = l.span ∧ ∀ size', r.run size' ls = .error e) ∨
      e.span = ⟨size, size⟩ ∧
        ∀ size', ∃ e', r.run size' ls = .error e' ∧ e'.span = ⟨size', size'⟩) := by
  induction ls generalizing r with
  | nil =>
    rw [run] at h
    split at h
    · cases h
    · rename_i hvalue
      cases h
      refine ⟨.intro _ _ _, .inr ⟨rfl, fun size' =>
        ⟨.malformed ⟨size', size'⟩ "Unexpected end of input" r.expected, ?_, rfl⟩⟩⟩
      rw [run, hvalue]
  | cons l ls ih =>
    rw [run] at h
    split at h
    · rename_i next hnext
      obtain ⟨hsyntactic, hplace⟩ := ih h
      refine ⟨hsyntactic, hplace.imp ?_ ?_⟩
      · rintro ⟨k, hk, hspan, hsame⟩
        refine ⟨k, List.mem_cons_of_mem l hk, hspan, fun size' => ?_⟩
        rw [run, hnext]
        exact hsame size'
      · rintro ⟨hspan, hother⟩
        refine ⟨hspan, fun size' => ?_⟩
        rw [run, hnext]
        exact hother size'
    · rename_i hnone
      cases h
      refine ⟨.intro _ _ _, .inl ⟨l, List.mem_cons_self, rfl, fun size' => ?_⟩⟩
      rw [run, hnone]

theorem run_ok {f : Formula} (h : r.run size ls = .ok f) (size' : ℕ) : r.run size' ls = .ok f :=
  (run_eq_ok_iff_foldlM size' r ls f).mpr ((run_eq_ok_iff_foldlM size r ls f).mp h)

end Reader

namespace Formula

open Lexeme

theorem utf8ByteSize_eq (s : String) : s.utf8ByteSize = byteSize s.toList := by
  rw [byteSize_eq, ← String.utf8ByteSize_ofList, String.ofList_toList]

def readChars (cs : List Char) : Except FormulaError Formula :=
  lexFrom 0 cs >>= Reader.start.run (byteSize cs)

theorem read_eq (s : String) : read s = readChars s.toList := by
  rw [read_eq_run, readChars, utf8ByteSize_eq, lex]

/-- an error is a place inside the text -/
theorem readChars_error {cs : List Char} {e : FormulaError} (h : readChars cs = .error e) :
    e.Syntactic ∧ e.span.start ≤ e.span.stop ∧ e.span.stop ≤ byteSize cs := by
  rcases error_of_bind h with hlex | ⟨ls, hlex, hrun⟩
  · obtain ⟨hsyntactic, -, hspan, hstop⟩ := lexFrom_error hlex
    exact ⟨hsyntactic, hspan, by omega⟩
  · obtain ⟨hsyntactic, hplace⟩ := Reader.run_error hrun
    refine ⟨hsyntactic, ?_⟩
    rcases hplace with ⟨l, hl, hspan, -⟩ | ⟨hspan, -⟩
    · obtain ⟨-, hle, hstop⟩ := lexFrom_ok hlex l hl
      rw [hspan]
      exact ⟨hle, by omega⟩
    · rw [hspan]
      exact ⟨Nat.le_refl _, Nat.le_refl _⟩

/-- a formula with gaps in front of it is the same one, with its errors further on -/
theorem readChars_front {front : List Char} (h : ∀ c ∈ front, isGap c = true) (cs : List Char) :
    readChars (front ++ cs) = (readChars cs).mapError (FormulaError.shift front.length) := by
  rw [readChars, readChars, lexFrom_gaps h, byteSize_append, byteSize_of_gaps h]
  have hshift := lexFrom_shift front.length 0 cs
  rw [Nat.add_zero] at hshift
  rw [Nat.zero_add, hshift]
  cases lexFrom 0 cs with
  | error e => rfl
  | ok ls => exact Reader.run_shift front.length (byteSize cs) Reader.start ls

/-- a blank in front of a formula that is no gap is in the way -/
theorem readChars_front_error {front : List Char} (h : ∀ c ∈ front, isBlank c = true)
    (hother : ∃ c ∈ front, isGap c = false) (cs : List Char) :
    ∃ e, readChars (front ++ cs) = .error e := by
  have hlex : ∀ start, ∃ e, lexFrom start (front ++ cs) = .error e := by
    induction front with
    | nil =>
      obtain ⟨c, hc, -⟩ := hother
      exact absurd hc List.not_mem_nil
    | cons d front ih =>
      intro start
      cases hgap : isGap d with
      | true =>
        have hrest : ∃ c ∈ front, isGap c = false := by
          obtain ⟨c, hc, hother⟩ := hother
          rcases List.mem_cons.mp hc with rfl | hc
          · rw [hgap] at hother
            cases hother
          · exact ⟨c, hc, hother⟩
        obtain ⟨e, he⟩ := ih (fun c hc => h c (List.mem_cons_of_mem d hc)) hrest (start + 1)
        exact ⟨e, by rw [List.cons_append, lexFrom_gap hgap, he]⟩
      | false =>
        have hmunch := munch_of_isBlank (h d List.mem_cons_self) (front ++ cs)
        exact ⟨_, lexFrom_stray hgap (congrArg Munch.token? hmunch)⟩
  obtain ⟨e, he⟩ := hlex 0
  exact ⟨e, by rw [readChars, he]; rfl⟩

section
variable {back : List Char} (hback : ∀ c ∈ back, isBlank c = true)
include hback

/-- a formula with blanks behind it is the same one if they are gaps; otherwise one of them is in
the way -/
theorem readChars_back_of_ok {cs : List Char} {f : Formula} (h : readChars cs = .ok f) :
    (∀ c ∈ back, isGap c = true) ∧ readChars (cs ++ back) = .ok f ∨
      (∃ c ∈ back, isGap c = false) ∧
        ∃ e, readChars (cs ++ back) = .error e ∧ byteSize cs < e.span.stop := by
  obtain ⟨ls, hlex, hrun⟩ := ok_of_bind h
  have happend := lexFrom_append_of_ok hback hlex
  rw [Nat.zero_add] at happend
  refine (lexFrom_blanks hback (byteSize cs)).imp ?_ ?_
  · rintro ⟨hgaps, hnothing⟩
    refine ⟨hgaps, ?_⟩
    rw [hnothing, Except.map, List.append_nil] at happend
    rw [readChars, happend]
    exact Reader.run_ok hrun _
  · rintro ⟨hother, e, hblank, hplace⟩
    rw [hblank] at happend
    exact ⟨hother, e, by rw [readChars, happend]; rfl, hplace⟩

/-- what is no formula is none with blanks behind it, for the same reason or for one further on -/
theorem readChars_back_of_error {cs : List Char} {e : FormulaError} (h : readChars cs = .error e)
    (hne : back ≠ []) :
    ∃ e', readChars (cs ++ back) = .error e' ∧ (e' = e ∨
      e.span.start ≤ e'.span.start ∧ byteSize cs < e'.span.stop) := by
  have hsize : byteSize cs < byteSize (cs ++ back) := by
    rw [byteSize_append]
    exact Nat.lt_add_of_pos_right (byteSize_pos hne)
  rcases error_of_bind h with hlex | ⟨ls, hlex, hrun⟩
  · obtain ⟨e', hlex', hplace⟩ := lexFrom_append_of_error hback hlex
    refine ⟨e', by rw [readChars, hlex']; rfl, hplace.imp id fun hplace => ?_⟩
    omega
  · have happend := lexFrom_append_of_ok hback hlex
    rw [Nat.zero_add] at happend
    have hstart : e.span.start ≤ byteSize cs := by
      obtain ⟨-, hspan, hstop⟩ := readChars_error h
      omega
    rcases lexFrom_blanks hback (byteSize cs) with ⟨-, hnothing⟩ | ⟨-, e', hblank, hplace⟩
    · rw [hnothing, Except.map, List.append_nil] at happend
      have hread : readChars (cs ++ back) = Reader.start.run (byteSize (cs ++ back)) ls := by
        rw [readChars, happend]
        rfl
      rw [hread]
      rcases (Reader.run_error hrun).2 with ⟨l, -, -, hsame⟩ | ⟨hspan, hother⟩
      · exact ⟨e, hsame _, .inl rfl⟩
      · obtain ⟨e', hrun', hspan'⟩ := hother (byteSize (cs ++ back))
        refine ⟨e', hrun', .inr ?_⟩
        rw [hspan']
        dsimp only
        omega
    · have hafter := (lexFrom_error hblank).2.start_le
      rw [hblank] at happend
      exact ⟨e', by rw [readChars, happend]; rfl, .inr ⟨by omega, hplace⟩⟩

/-- the error with blanks behind is not in front of the one without them -/
theorem start_le_of_readChars_back {cs : List Char} {e e' : FormulaError}
    (h : readChars cs = .error e) (h' : readChars (cs ++ back) = .error e') :
    e.span.start ≤ e'.span.start := by
  by_cases hnone : back = []
  · rw [hnone, List.append_nil, h] at h'
    exact le_of_eq (congrArg (fun e => e.span.start) (Except.error.inj h'))
  · obtain ⟨d, hd, hplace⟩ := readChars_back_of_error hback h hnone
    obtain rfl := Except.error.inj (h'.symm.trans hd)
    rcases hplace with hsame | ⟨hstart, -⟩
    · exact le_of_eq (congrArg (fun e => e.span.start) hsame.symm)
    · exact hstart

/-- an error that does not reach into the blanks behind is there without them -/
theorem readChars_of_back {cs : List Char} {e : FormulaError}
    (h : readChars (cs ++ back) = .error e) (hstop : e.span.stop ≤ byteSize cs) :
    readChars cs = .error e := by
  cases hread : readChars cs with
  | ok f =>
    rcases readChars_back_of_ok hback hread with ⟨-, hok⟩ | ⟨-, d, hd, hplace⟩
    · rw [hok] at h
      cases h
    · obtain rfl := Except.error.inj (h.symm.trans hd)
      omega
  | error d =>
    by_cases hnone : back = []
    · rw [hnone, List.append_nil, hread] at h
      exact h
    · obtain ⟨d', hd', hplace⟩ := readChars_back_of_error hback hread hnone
      obtain rfl := Except.error.inj (h.symm.trans hd')
      rcases hplace with hsame | ⟨-, hbehind⟩
      · rw [hsame]
      · omega

end

end Formula

/-! ### texts and their trimmed ones -/

namespace Formula

open Lexeme

/-- all blanks at either end of a text may stand between tokens -/
def Gapped (s : String) : Prop := ∀ c ∈ Text.front s ++ Text.back s, isGap c = true

/-- without the blanks in front, which have to be gaps, the errors of a text are further to the
front -/
theorem read_front {s : String} (h : ∀ c ∈ Text.front s, isGap c = true) :
    read s = (readChars ((Text.trim s).toList ++ Text.back s)).mapError
      (FormulaError.shift (Text.front s).length) := by
  rw [read_eq, Text.toList_eq s, readChars_front h]

/-- what there is behind the trimmed text is a formula only if the trimmed text is one -/
theorem readChars_trim {s : String} {f : Formula} :
    readChars ((Text.trim s).toList ++ Text.back s) = .ok f ↔
      read (Text.trim s) = .ok f ∧ ∀ c ∈ Text.back s, isGap c = true := by
  have hback : ∀ c ∈ Text.back s, isBlank c = true := fun _ => Text.isBlank_of_mem_back
  rw [read_eq]
  cases hread : readChars (Text.trim s).toList with
  | ok g =>
    rcases readChars_back_of_ok hback hread with ⟨hgaps, hok⟩ | ⟨⟨c, hc, hother⟩, e, herror, -⟩
    · rw [hok]
      exact (and_iff_left hgaps).symm
    · refine iff_of_false (by rw [herror]; exact nofun) fun h => ?_
      rw [h.2 c hc] at hother
      cases hother
  | error e =>
    refine iff_of_false (fun h => ?_) nofun
    by_cases hnone : Text.back s = []
    · rw [hnone, List.append_nil, hread] at h
      cases h
    · obtain ⟨e', herror, -⟩ := readChars_back_of_error hback hread hnone
      rw [herror] at h
      cases h

/-- A text is a formula if and only if it is the same one without the blanks around it, and these
are gaps. -/
theorem read_ok_iff (s : String) (f : Formula) :
    read s = .ok f ↔ read (Text.trim s) = .ok f ∧ Gapped s := by
  rw [Gapped, List.forall_mem_append, and_left_comm, ← readChars_trim]
  by_cases hfront : ∀ c ∈ Text.front s, isGap c = true
  · rw [and_iff_right hfront, read_front hfront]
    cases readChars ((Text.trim s).toList ++ Text.back s) <;> simp [Except.mapError]
  · refine iff_of_false (fun h => hfront fun c hc => ?_) fun h => hfront h.1
    refine Bool.of_not_eq_false fun hother => ?_
    obtain ⟨e, he⟩ := readChars_front_error (fun _ => Text.isBlank_of_mem_front) ⟨c, hc, hother⟩
      ((Text.trim s).toList ++ Text.back s)
    rw [read_eq, Text.toList_eq s, he] at h
    cases h

/-- a text is no formula if and only if it is none without the blanks around it, or one of these is
no gap -/
theorem read_error_iff (s : String) :
    (∃ e, read s = .error e) ↔ (∃ e, read (Text.trim s) = .error e) ∨ ¬ Gapped s := by
  have hok := read_ok_iff s
  cases hread : read s with
  | error e =>
    refine iff_of_true ⟨e, rfl⟩ ?_
    cases htrim : read (Text.trim s) with
    | error d => exact .inl ⟨d, rfl⟩
    | ok f => exact .inr fun hgapped => by simpa [hread] using (hok f).mpr ⟨htrim, hgapped⟩
  | ok f =>
    obtain ⟨htrim, hgapped⟩ := (hok f).mp hread
    refine iff_of_false nofun ?_
    rw [htrim]
    rintro (⟨e, he⟩ | hother)
    · cases he
    · exact hother hgapped

/-- A text with nothing but gaps in front that is no formula: without the blanks around it, it is
none for the same reason, at the same place, if and only if no gap stands in front and the place
does not reach into the blanks behind. -/
theorem read_trim_iff {s : String} {e : FormulaError} (h : read s = .error e)
    (hfront : ∀ c ∈ Text.front s, isGap c = true) :
    read (Text.trim s) = .error e ↔
      Text.front s = [] ∧ e.span.stop ≤ (Text.trim s).utf8ByteSize := by
  have hback : ∀ c ∈ Text.back s, isBlank c = true := fun _ => Text.isBlank_of_mem_back
  rw [read_front hfront] at h
  obtain ⟨e₁, he₁, rfl⟩ := error_of_mapError h
  have hsyntactic := (readChars_error he₁).1
  rw [read_eq, utf8ByteSize_eq]
  constructor
  · intro hread
    refine ⟨?_, (readChars_error hread).2.2⟩
    have hle := start_le_of_readChars_back hback hread he₁
    rw [hsyntactic.span_shift] at hle
    refine List.eq_nil_of_length_eq_zero ?_
    simp only [Span.shift] at hle
    omega
  · rintro ⟨hnone, hstop⟩
    have hshift : e₁.shift (Text.front s).length = e₁ := by
      rw [hnone]
      cases hsyntactic
      simp [FormulaError.shift, Span.shift]
    rw [hshift] at hstop ⊢
    exact readChars_of_back hback he₁ hstop

end Formula

end Figures
