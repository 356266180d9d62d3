import Figures.Formula.Report
import Figures.Proofs.Formula.Lexing
import Figures.Proofs.Number.Decimal

/-!
# Places in a source

* `Report.Lined`                the lines of some characters, each with its end
* `Report.lined_lines`          a source is cut into its lines
* `Report.Stands`               the place behind the first characters of a source
* `Report.locate_iff_stands`    what is located is this place
* `Report.locate_inj`           different characters have different places
* `Report.header_inj`           the head of a picture shows one place only

The end of a source stands on its last line, behind the end of this line if there is one.
-/

namespace Figures

namespace Report

/-! ### lines -/

inductive LineEnd : List Char → List Char → Prop
  | both (rest : List Char) : LineEnd ['\r', '\n'] rest
  | single {c : Char} {rest : List Char} (hc : endsLine c = true)
      (hrest : c = '\r' → rest.head? ≠ some '\n') : LineEnd [c] rest

/-- the lines of some characters; only the last one may have no end -/
inductive Lined : List Char → List (List Char) → Prop
  | nil : Lined [] []
  | unended {body : List Char} (hbody : ∀ c ∈ body, endsLine c = false) (hne : body ≠ []) :
      Lined body [body]
  | ended {body tail rest : List Char} {ls : List (List Char)}
      (hbody : ∀ c ∈ body, endsLine c = false) (htail : LineEnd tail rest) (hrest : Lined rest ls) :
      Lined (body ++ (tail ++ rest)) ((body ++ tail) :: ls)

theorem Lined.grow {c : Char} {cs : List Char} {ls : List (List Char)} (hc : endsLine c = false)
    (h : Lined cs ls) : Lined (c :: cs) (Report.grow c ls) := by
  cases h with
  | nil => exact .unended (List.forall_mem_cons.mpr ⟨hc, nofun⟩) (List.cons_ne_nil c [])
  | unended hbody _ => exact .unended (List.forall_mem_cons.mpr ⟨hc, hbody⟩) (List.cons_ne_nil _ _)
  | ended hbody htail hrest => exact .ended (List.forall_mem_cons.mpr ⟨hc, hbody⟩) htail hrest

theorem Lined.ended_front {tail rest : List Char} {ls : List (List Char)} (h : Lined rest ls)
    (htail : LineEnd tail rest) : Lined (tail ++ rest) (tail :: ls) :=
  .ended (List.forall_mem_nil _) htail h

theorem lined_linesOf (cs : List Char) : Lined cs (linesOf cs) := by
  induction cs using linesOf.induct with
  | case1 => exact .nil
  | case2 cs ih => exact ih.ended_front (.both cs)
  | case3 c cs hboth hc ih =>
    rw [linesOf, if_pos hc]
    · refine ih.ended_front (.single hc fun hreturn hfeed => ?_)
      obtain ⟨rest, rfl⟩ := List.head?_eq_some_iff.mp hfeed
      exact hboth rest hreturn rfl
    · exact hboth
  | case4 c cs hboth hc ih =>
    rw [linesOf, if_neg hc]
    · exact ih.grow (Bool.eq_false_iff.mpr hc)
    · exact hboth

theorem Lined.flatten {cs : List Char} {ls : List (List Char)} (h : Lined cs ls) :
    ls.flatten = cs := by
  induction h with
  | nil => rfl
  | unended _ _ => exact List.append_nil _
  | ended _ _ _ ih => rw [List.flatten_cons, ih, List.append_assoc]

/-- a source is cut into its lines; an empty one is an empty line -/
theorem lined_lines (source : List Char) :
    Lined source (lines source) ∨ source = [] ∧ lines source = [[]] := by
  rw [lines]
  cases source with
  | nil => exact .inr ⟨rfl, rfl⟩
  | cons c cs => exact .inl (lined_linesOf (c :: cs))

@[simp] theorem flatten_lines (source : List Char) : (lines source).flatten = source := by
  rcases lined_lines source with h | ⟨rfl, h⟩
  · exact h.flatten
  · rw [h]
    rfl

theorem lines_ne_nil (source : List Char) : lines source ≠ [] := by
  rcases lined_lines source with h | ⟨-, h⟩
  · intro hnil
    rw [hnil] at h
    cases h
    cases hnil
  · rw [h]
    exact List.cons_ne_nil _ _

/-! ### places -/

/-- `p` is the place in `source` behind the characters `before`: these are some lines and the first
characters of the next one. Behind a line end it is on the next line, if there is one. -/
def Stands (source before : List Char) (p : Place) : Prop :=
  ∃ earlier later, lines source = earlier ++ p.line :: later ∧ p.row = earlier.length + 1 ∧
    before = earlier.flatten ++ p.line.take p.offset ∧
    (p.offset < p.line.length ∨ later = [] ∧ p.offset = p.line.length)

section
variable {row offset : ℕ} {ls : List (List Char)} {p q : Place}

theorem locate_cons_skip {l : List Char} (h : l.length ≤ offset) (hne : ls ≠ []) :
    locate row (l :: ls) offset = locate (row + 1) ls (offset - l.length) := by
  have hempty : ls.isEmpty = false := by simpa using hne
  rw [locate, if_neg (by simp [hempty]; omega), if_neg (by simp [hempty])]

/-- the place of a character is on the line that its number lies on -/
theorem locate_eq_some_iff : locate row ls offset = some p ↔
    ∃ earlier later, ls = earlier ++ p.line :: later ∧ p.row = row + earlier.length ∧
      offset = earlier.flatten.length + p.offset ∧
      (p.offset < p.line.length ∨ later = [] ∧ p.offset = p.line.length) := by
  induction ls generalizing row offset with
  | nil =>
    rw [locate]
    refine iff_of_false nofun ?_
    rintro ⟨earlier, later, heq, -⟩
    cases earlier <;> cases heq
  | cons l ls ih =>
    constructor
    · intro h
      rw [locate] at h
      split at h
      · rename_i hhere
        cases h
        rw [List.isEmpty_iff] at hhere
        exact ⟨[], ls, rfl, rfl, (Nat.zero_add offset).symm, hhere⟩
      · split at h
        · cases h
        · rename_i hhere hlast
          obtain ⟨earlier, later, rfl, hrow, hoffset, hinside⟩ := ih.mp h
          refine ⟨l :: earlier, later, rfl, ?_, ?_, hinside⟩
          · rw [hrow, List.length_cons]
            omega
          · rw [List.flatten_cons, List.length_append]
            omega
    · rintro ⟨earlier, later, heq, hrow, hoffset, hinside⟩
      cases earlier with
      | nil =>
        obtain ⟨rfl, rfl⟩ := List.cons.inj heq
        rw [List.flatten_nil, List.length_nil, Nat.zero_add] at hoffset
        subst hoffset
        rw [locate, if_pos (hinside.imp_right fun hend => ⟨List.isEmpty_iff.mpr hend.1, hend.2⟩)]
        exact congrArg (fun n => some (Place.mk n p.line p.offset)) hrow.symm
      | cons k earlier =>
        obtain ⟨rfl, rfl⟩ := List.cons.inj heq
        rw [List.flatten_cons, List.length_append] at hoffset
        rw [List.length_cons] at hrow
        rw [locate_cons_skip (by omega) (by simp)]
        exact ih.mpr ⟨earlier, later, rfl, by omega, by omega, hinside⟩

theorem exists_locate_of_le (hne : ls ≠ []) (h : offset ≤ ls.flatten.length) :
    ∃ p, locate row ls offset = some p := by
  induction ls generalizing row offset with
  | nil => exact absurd rfl hne
  | cons l ls ih =>
    rw [List.flatten_cons, List.length_append] at h
    by_cases hhere : offset < l.length ∨ ls.isEmpty ∧ offset = l.length
    · exact ⟨⟨row, l, offset⟩, by rw [locate, if_pos hhere]⟩
    · by_cases hlast : ls = []
      · subst hlast
        simp only [List.isEmpty_nil, true_and, List.flatten_nil, List.length_nil] at hhere h
        omega
      · rw [locate_cons_skip (by omega) hlast]
        exact ih hlast (by omega)

theorem locate_inj {offset' : ℕ} (h : locate row ls offset = some p)
    (h' : locate row ls offset' = some q)
    (hrow : p.row = q.row) (hoffset : p.offset = q.offset) : offset = offset' := by
  obtain ⟨earlier, later, hp, hprow, rfl, -⟩ := locate_eq_some_iff.mp h
  obtain ⟨earlier', later', hq, hqrow, rfl, -⟩ := locate_eq_some_iff.mp h'
  obtain ⟨rfl, -⟩ := List.append_inj (hp.symm.trans hq) (by omega)
  rw [hoffset]

end

section
variable {source : List Char} {offset : ℕ} {p q : Place}

theorem le_length_of_locate (h : locate 1 (lines source) offset = some p) :
    offset ≤ source.length := by
  obtain ⟨earlier, later, hlines, -, rfl, hinside⟩ := locate_eq_some_iff.mp h
  rw [← flatten_lines source, hlines, List.flatten_append, List.length_append, List.flatten_cons,
    List.length_append]
  omega

/-- what is located is the place behind the characters in front -/
theorem locate_iff_stands {before after : List Char} (hsource : source = before ++ after) :
    locate 1 (lines source) before.length = some p ↔ Stands source before p := by
  rw [locate_eq_some_iff]
  constructor
  · rintro ⟨earlier, later, hlines, hrow, hoffset, hinside⟩
    refine ⟨earlier, later, hlines, by omega, ?_, hinside⟩
    have hflat := flatten_lines source
    rw [hlines, List.flatten_append, List.flatten_cons] at hflat
    calc before = (before ++ after).take before.length := List.take_left.symm
      _ = (earlier.flatten ++ (p.line ++ later.flatten)).take
        (earlier.flatten.length + p.offset) := by
        rw [← hsource, ← hflat, hoffset]
      _ = earlier.flatten ++ p.line.take p.offset := by
        rw [List.take_length_add_append, List.take_append_of_le_length (by omega)]
  · rintro ⟨earlier, later, hlines, hrow, hbefore, hinside⟩
    refine ⟨earlier, later, hlines, by omega, ?_, hinside⟩
    rw [hbefore, List.length_append, List.length_take]
    omega

theorem exists_locate (h : offset ≤ source.length) : ∃ p, locate 1 (lines source) offset = some p :=
  exists_locate_of_le (lines_ne_nil source) (by rwa [flatten_lines])

end

/-! ### places as reports show them -/

/-- a front without the character behind it ends there -/
theorem front_inj {p : Char → Bool} {a b r s : List Char} {c d : Char} (ha : a.all p = true)
    (hb : b.all p = true) (hc : p c = false) (hd : p d = false) (h : a ++ c :: r = b ++ d :: s) :
    a = b ∧ c :: r = d :: s := by
  have hstops : ∀ {e : Char} {t : List Char}, p e = false → Lexeme.Stops p (e :: t) := by
    rintro e t he _ ⟨⟩
    exact he
  have hfront := congrArg (List.takeWhile p) h
  rw [Lexeme.takeWhile_append_of_stops ha (hstops hc), Lexeme.takeWhile_append_of_stops hb
    (hstops hd)]
    at hfront
  subst hfront
  exact ⟨rfl, List.append_cancel_left h⟩

theorem toList_shown (p : Place) :
    p.shown.toList = (Nat.repr p.row).toList ++ ':' :: (Nat.repr (p.offset + 1)).toList := by
  rw [Place.shown]
  simp only [toString, String.toList_append, String.append_assoc]
  rfl

/-- line and column can be told from what is shown, whatever stands behind it -/
theorem shown_inj {p q : Place} {c : Char} {r s : List Char} (hc : c.isDigit = false)
    (h : p.shown.toList ++ c :: r = q.shown.toList ++ c :: s) : p.row = q.row ∧
      p.offset = q.offset := by
  rw [toList_shown, toList_shown, List.append_assoc, List.append_assoc] at h
  obtain ⟨hrow, hrest⟩ := front_inj (repr_digits _) (repr_digits _) rfl rfl h
  obtain ⟨hcolumn, -⟩ := front_inj (repr_digits _) (repr_digits _) hc hc (List.cons.inj hrest).2
  exact ⟨Nat.repr_injective (String.toList_inj.mp hrow),
    Nat.succ.inj (Nat.repr_injective (String.toList_inj.mp hcolumn))⟩

/-- behind the blanks in front, only the place tells two heads for one file apart -/
theorem exists_toList_header (file : String) : ∃ front back, ∀ digits p,
    (header digits file p).toList =
      List.replicate (digits + 2) ' ' ++
        '\x1b' :: (front ++ (p.shown.toList ++ '\x1b' :: back)) := by
  refine ⟨("[" ++ frame ++ "m╭\x1b[0m" ++ paint frame "─" ++ paint frame "[" ++ file ++ ":").toList,
    ("[" ++ frame ++ "m]\x1b[0m\n").toList, fun digits p => ?_⟩
  simp only [header, blanks, paint, frame, String.toList_append, String.toList_ofList,
    List.append_assoc]
  rfl

/-- the head of a picture shows one place only -/
theorem header_inj {digits digits' : ℕ} {file rest rest' : String} {p q : Place}
    (h : header digits file p ++ rest = header digits' file q ++ rest') :
    p.row = q.row ∧ p.offset = q.offset := by
  obtain ⟨front, back, hheader⟩ := exists_toList_header file
  have hlists := congrArg String.toList h
  simp only [String.toList_append, hheader, List.append_assoc, List.cons_append] at hlists
  have hblanks : ∀ n, (List.replicate n ' ').all (· == ' ') = true := fun n => by simp
  obtain ⟨-, hbehind⟩ := front_inj (hblanks _) (hblanks _) rfl rfl hlists
  exact shown_inj rfl (List.append_cancel_left (List.cons.inj hbehind).2)

end Report

end Figures
