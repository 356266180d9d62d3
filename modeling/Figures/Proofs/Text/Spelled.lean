import Figures.Number.Shortest
import Figures.Proofs.Number.Fixed
import Figures.Proofs.Text.Pieces
import Figures.Text.Blank

/-!
# The characters of texts

* `xmlChar`              the characters that a document of XML 1.0 may hold
* `Allowed s`            a text of such characters only
* `Spelled given s`      a text of such characters and of the given ones
* `Spelled.trim`, …      what is cut from such texts, or put together of them, is one
* `spelled_tidy`, …      numbers are written with allowed characters
-/

namespace Figures

/-- the characters that a document of XML 1.0 may hold -/
def xmlChar (c : Char) : Bool :=
  c == '\t' || c == '\n' || c == '\r' || (0x20 ≤ c.toNat && c.toNat ≤ 0xD7FF) ||
    (0xE000 ≤ c.toNat && c.toNat ≤ 0xFFFD) || (0x10000 ≤ c.toNat && c.toNat ≤ 0x10FFFF)

/-- a text of characters that a document may hold -/
def Allowed (s : String) : Prop := s.toList.all xmlChar = true

instance (s : String) : Decidable (Allowed s) :=
  inferInstanceAs (Decidable (s.toList.all xmlChar = true))

/-- a text of characters that a document may hold, and of the given ones -/
def Spelled (given : List Char) (s : String) : Prop :=
  ∀ c ∈ s.toList, xmlChar c = true ∨ c ∈ given

theorem Allowed.xmlChar {s : String} (h : Allowed s) {c : Char} (hc : c ∈ s.toList) :
    xmlChar c = true := List.all_eq_true.mp h c hc

theorem spelled_nil_iff {s : String} : Spelled [] s ↔ Allowed s := by
  simp [Spelled, Allowed]

variable {given : List Char}

@[simp] theorem spelled_of_allowed {s : String} (h : Allowed s) : Spelled given s :=
  fun _ hc => .inl (h.xmlChar hc)

theorem spelled_of_subset {s : String} (h : ∀ c ∈ s.toList, c ∈ given) : Spelled given s :=
  fun c hc => .inr (h c hc)

theorem Spelled.of_subset {s t : String} (h : Spelled given s)
    (hsub : ∀ c ∈ t.toList, c ∈ s.toList) :
    Spelled given t := fun c hc => h c (hsub c hc)

@[simp] theorem spelled_empty : Spelled given "" := fun _ hc => absurd hc List.not_mem_nil

@[simp] theorem spelled_append {s t : String} :
    Spelled given (s ++ t) ↔ Spelled given s ∧ Spelled given t := by
  simp only [Spelled, String.toList_append, List.forall_mem_append]

theorem spelled_intercalate {sep : String} {ss : List String} (hsep : Spelled given sep)
    (h : ∀ s ∈ ss, Spelled given s) : Spelled given (sep.intercalate ss) := by
  induction ss with
  | nil => exact spelled_empty
  | cons s ss ih =>
    obtain ⟨hs, hrest⟩ := List.forall_mem_cons.mp h
    cases ss with
    | nil => exact String.intercalate_singleton ▸ hs
    | cons t ss =>
      rw [String.intercalate_cons_cons]
      exact spelled_append.mpr ⟨spelled_append.mpr ⟨hs, hsep⟩, ih hrest⟩

/-! ### what is cut from a text -/

theorem Spelled.trim {s : String} (h : Spelled given s) : Spelled given (Text.trim s) :=
  h.of_subset fun _ => Text.mem_trim

theorem mem_splitAux {cut : Char → Bool} {piece cs : List Char} {part : String} {c : Char}
    (hpart : part ∈ Text.splitAux cut piece cs) (hc : c ∈ part.toList) : c ∈ piece ∨ c ∈ cs := by
  induction cs generalizing piece with
  | nil =>
    rw [Text.splitAux, List.mem_singleton] at hpart
    subst hpart
    exact .inl (by simpa using hc)
  | cons d cs ih =>
    rw [Text.splitAux] at hpart
    split at hpart
    · rcases List.mem_cons.mp hpart with rfl | hpart
      · exact .inl (by simpa using hc)
      · exact .inr (List.mem_cons_of_mem d ((ih hpart).resolve_left List.not_mem_nil))
    · rcases ih hpart with h | h
      · exact (List.mem_cons.mp h).elim (fun heq => .inr (heq ▸ List.mem_cons_self)) .inl
      · exact .inr (List.mem_cons_of_mem d h)

theorem Spelled.entries {s : String} (h : Spelled given s) :
    ∀ entry ∈ Text.entries s, Spelled given entry := by
  intro entry hentry
  obtain ⟨part, hpart, rfl⟩ := List.mem_map.mp (List.mem_filter.mp hentry).1
  exact h.of_subset fun c hc => (mem_splitAux hpart (Text.mem_trim hc)).resolve_left
    List.not_mem_nil

/-! ### numbers -/

theorem xmlChar_of_numeral {c : Char} (h : numeral c = true) : xmlChar c = true := by
  rcases numeral_cases h with ⟨hlow, hhigh⟩ | rfl | rfl
  · simp only [xmlChar, Bool.or_eq_true, Bool.and_eq_true, decide_eq_true_iff]
    omega
  · decide
  · decide

theorem spelled_of_numeral {s : String} (h : ∀ c ∈ s.toList, numeral c = true) : Spelled given s :=
  fun c hc => .inl (xmlChar_of_numeral (h c hc))

@[simp] theorem spelled_tidy (places : Nat) (x : Float) : Spelled given (tidy places x) :=
  spelled_of_numeral (numeral_tidy places x)

@[simp] theorem spelled_repr (n : Nat) : Spelled given (Nat.repr n) :=
    spelled_of_numeral (numeral_repr n)

theorem spelled_signed (negative : Bool) {s : String} (h : Spelled given s) :
    Spelled given (signed negative s) := by
  cases negative with
  | false => exact h
  | true => exact spelled_append.mpr ⟨spelled_of_allowed (by decide), h⟩

namespace Digits

theorem spelled_zeros (n : Nat) : Spelled given (zeros n) := by
  intro c hc
  rw [zeros, String.toList_ofList] at hc
  obtain rfl := List.eq_of_mem_replicate hc
  exact .inl (by decide)

theorem spelled_positional {whole : String} (hwhole : Spelled given whole) (d : Digits) :
    Spelled given (d.positional whole) := by
  have hdigits : Spelled given (Nat.repr d.digits) := spelled_repr d.digits
  have hpoint : Spelled given "." := spelled_of_allowed (by decide)
  unfold positional
  dsimp only
  split
  · exact spelled_append.mpr ⟨spelled_append.mpr ⟨hdigits, spelled_zeros _⟩, hwhole⟩
  · split
    · refine spelled_append.mpr ⟨spelled_append.mpr ⟨?_, hpoint⟩, ?_⟩
      · exact hdigits.of_subset fun c hc => List.mem_of_mem_take (by simpa using hc)
      · exact hdigits.of_subset fun c hc => List.mem_of_mem_drop (by simpa using hc)
    · exact spelled_append.mpr ⟨spelled_append.mpr
        ⟨spelled_of_allowed (by decide), spelled_zeros _⟩, hdigits⟩

theorem spelled_scientific (d : Digits) : Spelled given d.scientific := by
  have hdigits : Spelled given (Nat.repr d.digits) := spelled_repr d.digits
  have hpower : Spelled given
      (if d.magnitude < 0 then "e-" ++ Nat.repr (-d.magnitude).toNat
        else "e+" ++ Nat.repr d.magnitude.toNat) := by
    split
    · exact spelled_append.mpr ⟨spelled_of_allowed (by decide), spelled_repr _⟩
    · exact spelled_append.mpr ⟨spelled_of_allowed (by decide), spelled_repr _⟩
  unfold scientific
  dsimp only
  split
  · exact hpower
  · rename_i c hcs
    refine spelled_append.mpr ⟨hdigits.of_subset fun b hb => ?_, hpower⟩
    rw [hcs]
    simpa using hb
  · rename_i c cs _ hcs
    have hhead : Spelled given (String.ofList [c]) := hdigits.of_subset fun b hb => by
      rw [hcs]
      exact List.mem_cons.mpr (.inl (by simpa using hb))
    have htail : Spelled given (String.ofList cs) := hdigits.of_subset fun b hb => by
      rw [hcs]
      exact List.mem_cons_of_mem c (by simpa using hb)
    exact spelled_append.mpr ⟨spelled_append.mpr ⟨spelled_append.mpr
      ⟨hhead, spelled_of_allowed (by decide)⟩, htail⟩, hpower⟩

end Digits

@[simp] theorem spelled_plain (x : Float) : Spelled given (plain x) := by
  unfold plain
  split
  · have hnames : ∀ s ∈ ["NaN", "-inf", "inf"], Allowed s := by decide
    refine spelled_of_allowed (hnames _ ?_)
    unfold nonFiniteName
    split
    · decide
    · split <;> decide
  · split
    · exact spelled_signed _ (spelled_of_allowed (by decide))
    · exact spelled_signed _ (Digits.spelled_positional spelled_empty _)

theorem spelled_precise {x : Float} {s : String} (h : precise? x = some s) : Spelled given s := by
  obtain ⟨b, -, rfl⟩ := Option.map_eq_some_iff.mp h
  split
  · exact spelled_signed _ (spelled_of_allowed (by decide))
  · refine spelled_signed _ ?_
    split
    · exact Digits.spelled_positional (spelled_of_allowed (by decide)) _
    · exact Digits.spelled_scientific _

end Figures
