import Figures.Proofs.Formula.Places
import Figures.Proofs.Formula.Tiling
import Figures.Proofs.Formula.Viable

/-!
# The place of an error in its report

* `Formula.exists_slice_of_error`   an error of a text marks characters of it
* `Lexeme.byteSize_eq_length_iff`   characters are as many as their bytes if and only if they are
                                    ASCII
* `FormulaError.Heads`              the head of a report shows a place
* `FormulaError.heads_report_iff`   it is the place of the character whose number is that of the
                                    first byte
* `FormulaError.report_place_iff`   when it is the place of the error

Marks count bytes and reports count characters.
-/

namespace Figures

open Lexeme (byteSize lexFrom munch)

namespace Lexeme

/-- characters that are no token are marked as they stand -/
theorem exists_stray_of_lexFrom {start : ℕ} {cs : List Char} {e : FormulaError}
    (h : lexFrom start cs = .error e) :
    ∃ before part behind, cs = before ++ (part ++ behind) ∧
      e = stray (start + byteSize before) part := by
  induction start, cs using lexFrom_induction with
  | nil start =>
    rw [lexFrom] at h
    cases h
  | gap start c cs hgap ih =>
    rw [lexFrom_gap hgap] at h
    obtain ⟨before, part, behind, rfl, he⟩ := ih h
    refine ⟨c :: before, part, behind, rfl, ?_⟩
    rw [he, byteSize_cons, utf8Size_of_isGap hgap, Nat.add_assoc]
  | stray start c cs hgap hnone =>
    rw [lexFrom_stray hgap hnone] at h
    exact ⟨[], c :: (munch c cs).extra, _, (append_drop_extra c cs).symm, (Except.error.inj h).symm⟩
  | token start c cs t hgap hsome ih =>
    rw [lexFrom_token hgap hsome] at h
    obtain ⟨before, part, behind, hcs, he⟩ := ih (error_of_map h)
    refine ⟨c :: (munch c cs).extra ++ before, part, behind, ?_, ?_⟩
    · rw [List.append_assoc, ← hcs, append_drop_extra]
    · rw [he, byteSize_append, Nat.add_assoc]

theorem length_le_byteSize (cs : List Char) : cs.length ≤ byteSize cs := by
  induction cs with
  | nil => exact Nat.le_refl 0
  | cons c cs ih =>
    have hc := c.utf8Size_pos
    rw [byteSize_cons, List.length_cons]
    omega

/-- characters are as many as their bytes if and only if they are ASCII -/
theorem byteSize_eq_length_iff (cs : List Char) :
    byteSize cs = cs.length ↔ ∀ c ∈ cs, c.toNat < 128 := by
  induction cs with
  | nil => exact iff_of_true rfl nofun
  | cons c cs ih =>
    have hc := c.utf8Size_pos
    have hcs := length_le_byteSize cs
    have hone : c.utf8Size = 1 ↔ c.toNat < 128 := by
      rw [Char.utf8Size_eq_one_iff, UInt32.le_iff_toNat_le, Nat.lt_succ_iff.symm]
      rfl
    rw [byteSize_cons, List.length_cons, List.forall_mem_cons, ← ih, ← hone]
    omega

end Lexeme

/-- an error of a text marks characters of it -/
theorem Formula.exists_slice_of_error {s : String} {e : FormulaError}
    (h : Lexeme.lex s = .error e ∨ Formula.read s = .error e) :
    ∃ span reason expected part, e = .malformed span reason expected ∧
      Slice s.toList span part := by
  have hlexed : Lexeme.lex s = .error e →
      ∃ span reason expected part, e = .malformed span reason expected ∧
      Slice s.toList span part := by
    intro hlex
    obtain ⟨before, part, behind, hs, rfl⟩ := Lexeme.exists_stray_of_lexFrom hlex
    exact ⟨_, _, _, part, rfl, before, behind, hs, by rw [Nat.zero_add]⟩
  rcases h with hlex | hread
  · exact hlexed hlex
  · rw [Formula.read_eq_run] at hread
    rcases error_of_bind hread with hlex | ⟨ls, hlex, hrun⟩
    · exact hlexed hlex
    · obtain ⟨front, back, r, rfl, -, hstuck⟩ := Reader.exists_stuck hrun
      rcases hstuck with ⟨x, rest, rfl, -, rfl⟩ | ⟨-, -, rfl⟩
      · -- the token that no formula goes on with
        obtain ⟨before, part, behind, hs, hspan, -⟩ :=
          (Lexeme.tiles_of_ok hlex).stands x (List.mem_append_right front List.mem_cons_self)
        exact ⟨_, _, _, part, rfl, before, behind, hs, by rw [hspan, Nat.zero_add]⟩
      · -- the end
        refine ⟨_, _, _, [], rfl, s.toList, [], by rw [List.append_nil, List.append_nil], ?_⟩
        rw [Formula.utf8ByteSize_eq]
        rfl

namespace Report

variable {source : List Char} {mark : Span} {first last : Place}

/-- a mark is drawn if its first character is in the source and its last one is, or is the end -/
theorem exists_ends?_iff : (∃ last, ends? source mark = some (first, last)) ↔
    locate 1 (lines source) mark.start = some first ∧ mark.stop ≤ source.length + 1 := by
  constructor
  · rintro ⟨last, h⟩
    obtain ⟨place, hplace, h⟩ := Option.bind_eq_some_iff.mp h
    obtain ⟨other, hother, h⟩ := Option.bind_eq_some_iff.mp h
    obtain ⟨rfl, rfl⟩ := Prod.mk.inj (Option.some.inj h)
    have hle := le_length_of_locate hother
    exact ⟨hplace, by omega⟩
  · rintro ⟨hplace, hstop⟩
    have hle := le_length_of_locate hplace
    obtain ⟨last, hlast⟩ : ∃ last, locate 1 (lines source) (max mark.start (mark.stop - 1)) =
      some last :=
      exists_locate (by omega)
    exact ⟨last, Option.bind_eq_some_iff.mpr ⟨first, hplace,
      Option.bind_eq_some_iff.mpr ⟨last, hlast, rfl⟩⟩⟩

theorem shown_congr {p q : Place} (hrow : p.row = q.row) (hoffset : p.offset = q.offset) :
    p.shown = q.shown := by
  rw [Place.shown, Place.shown, hrow, hoffset]

end Report

namespace FormulaError

/-- the head of the picture in a report, which stands behind the heading with the reason, shows
`p` -/
def Heads (report reason file : String) (p : Report.Place) : Prop :=
  ∃ digits rest, report = Report.heading reason ++ (Report.header digits file p ++ rest)

section
variable {reason file report : String} {p q : Report.Place}

theorem heads_iff_of_heads (hq : Heads report reason file q) :
    Heads report reason file p ↔ q.row = p.row ∧ q.offset = p.offset := by
  obtain ⟨digits, rest, rfl⟩ := hq
  constructor
  · rintro ⟨digits', rest', heq⟩
    exact Report.header_inj ((String.append_right_inj _).mp heq)
  · rintro ⟨hrow, hoffset⟩
    refine ⟨digits, rest, ?_⟩
    rw [Report.header, Report.header, Report.shown_congr hrow hoffset]

theorem not_heads_heading : ¬ Heads (Report.heading reason) reason file p := by
  rintro ⟨digits, rest, heq⟩
  obtain ⟨front, back, hheader⟩ := Report.exists_toList_header file
  have hlists := congrArg String.toList heq
  rw [String.toList_append, String.toList_append, hheader, List.self_eq_append_right] at hlists
  simp at hlists

end

variable (span : Span) (reason source file : String) (expected : List String)

theorem report_of_none (h : Report.ends? source.toList span = none) :
    (malformed span reason expected).report source file = Report.heading reason := by
  rw [report, h]
  exact String.append_empty

theorem heads_report {first last : Report.Place}
    (h : Report.ends? source.toList span = some (first, last)) :
    Heads ((malformed span reason expected).report source file) reason file first := by
  rw [report, h]
  exact ⟨_, _, rfl⟩

/-- the head shows the place of the character whose number is that of the first byte of the mark, if
the mark is drawn -/
theorem heads_report_iff (p : Report.Place) :
    Heads ((malformed span reason expected).report source file) reason file p ↔
      span.stop ≤ source.toList.length + 1 ∧
      ∃ q, Report.locate 1 (Report.lines source.toList) span.start = some q ∧
        q.row = p.row ∧ q.offset = p.offset := by
  cases hmark : Report.ends? source.toList span with
  | none =>
    rw [report_of_none span reason source file expected hmark]
    refine iff_of_false not_heads_heading ?_
    rintro ⟨hstop, q, hq, -⟩
    obtain ⟨last, hlast⟩ := Report.exists_ends?_iff.mpr ⟨hq, hstop⟩
    rw [hmark] at hlast
    cases hlast
  | some ends =>
    obtain ⟨first, last⟩ := ends
    obtain ⟨hfirst, hstop⟩ := Report.exists_ends?_iff.mp ⟨last, hmark⟩
    rw [heads_iff_of_heads (heads_report span reason source file expected hmark),
      and_iff_right hstop, hfirst]
    simp only [Option.some.injEq, exists_eq_left']

/-- **the head of a report shows the place of the error** if and only if the characters in front of
it are ASCII and the mark, which counts bytes, ends in the source if it is taken to count
characters -/
theorem report_place_iff {s : String} {e : FormulaError}
    (h : Lexeme.lex s = .error e ∨ Formula.read s = .error e) :
    ∃ span reason expected before marked after place, e = .malformed span reason expected ∧
      s.toList = before ++ (marked ++ after) ∧
      span = ⟨byteSize before, byteSize before + byteSize marked⟩ ∧
      Report.Stands s.toList before place ∧
      ∀ file, Heads (e.report s file) reason file place ↔
        (∀ c ∈ before, c.toNat < 128) ∧ byteSize marked ≤ marked.length + after.length + 1 := by
  obtain ⟨span, reason, expected, marked, rfl, before, after, hs, rfl⟩ :=
    Formula.exists_slice_of_error h
  have hsize : s.toList.length = before.length + (marked.length + after.length) := by
    rw [hs, List.length_append, List.length_append]
  obtain ⟨place, hplace⟩ : ∃ place, Report.locate 1 (Report.lines s.toList) before.length =
    some place :=
    Report.exists_locate (by omega)
  refine ⟨_, reason, expected, before, marked, after, place, rfl, hs, rfl,
    (Report.locate_iff_stands hs).mp hplace, fun file => ?_⟩
  rw [heads_report_iff, ← Lexeme.byteSize_eq_length_iff, hsize]
  constructor
  · rintro ⟨hstop, q, hq, hrow, hoffset⟩
    have hbefore := Report.locate_inj hq hplace hrow hoffset
    exact ⟨hbefore, by dsimp only at hstop hbefore; omega⟩
  · rintro ⟨hbefore, hmarked⟩
    refine ⟨by dsimp only; omega, place, ?_, rfl, rfl⟩
    rwa [hbefore]

/-- on the second line, in front of a character of two bytes, the place of the error is shown -/
theorem report_place_iff_second_line :
    Lexeme.lex "a\n +é" = .error (.malformed ⟨3, 4⟩ "Unexpected character '+'" []) ∧
    ∃ place, Report.Stands "a\n +é".toList "a\n ".toList place ∧ place.shown = "2:2" ∧
      ∀ file, Heads ((malformed ⟨3, 4⟩ "Unexpected character '+'" []).report "a\n +é" file)
        "Unexpected character '+'" file place := by
  have hlex : Lexeme.lex "a\n +é" = .error (.malformed ⟨3, 4⟩ "Unexpected character '+'" []) := by
    have hname : munch 'a' "\n +é".toList = ⟨some (.name "a"), []⟩ := by cbv
    show lexFrom 0 ('a' :: "\n +é".toList) = _
    rw [Lexeme.lexFrom_token rfl (congrArg Lexeme.Munch.token? hname), hname]
    show (lexFrom 1 ['\n', ' ', '+', 'é']).map _ = _
    rw [Lexeme.lexFrom_gap rfl, Lexeme.lexFrom_gap rfl, Lexeme.lexFrom_stray rfl (by rfl)]
    rfl
  obtain ⟨_, _, _, before, marked, after, place, ⟨⟩, hs, hspan, hstands, hheads⟩ :=
    report_place_iff (.inl hlex)
  obtain ⟨hstart, hstop⟩ := Span.mk.inj hspan
  obtain ⟨rfl, hrest⟩ : before = "a\n ".toList ∧ marked ++ after = "+é".toList :=
    append_inj_of_byteSize (hs.symm.trans rfl) (hstart.symm.trans (by decide))
  obtain ⟨rfl, rfl⟩ : marked = ['+'] ∧ after = ['é'] :=
    append_inj_of_byteSize (hrest.trans rfl) (Nat.add_left_cancel (hstart ▸ hstop.symm))
  have hplace := (Report.locate_iff_stands hs).mpr hstands
  obtain rfl : (⟨2, " +é".toList, 1⟩ : Report.Place) = place :=
    Option.some.inj (.trans (by decide) hplace)
  have hascii : ∀ c ∈ "a\n ".toList, c.toNat < 128 := by simp
  exact ⟨hlex, _, hstands, rfl, fun file => (hheads file).mpr ⟨hascii, by decide⟩⟩

/-- the fifth character of `'é' + b` is reported as the sixth, as there are five bytes in front of
it -/
theorem report_misplaced : ∃ place other : Report.Place,
    Lexeme.lex "'é' + b"
      = .error (.malformed ⟨byteSize "'é' ".toList, 6⟩ "Unexpected character '+'" []) ∧
    Report.Stands "'é' + b".toList "'é' ".toList place ∧ place.shown = "1:5" ∧ other.shown = "1:6" ∧
    ∀ file report, report =
        (malformed ⟨byteSize "'é' ".toList, 6⟩ "Unexpected character '+'" []).report
          "'é' + b" file →
      Heads report "Unexpected character '+'" file other ∧
        ¬ Heads report "Unexpected character '+'" file place := by
  have hlex : Lexeme.lex "'é' + b" = .error (.malformed ⟨5, 6⟩ "Unexpected character '+'" []) := by
    have hquoted : munch '\x27' "é' + b".toList = ⟨some (.text "é"), "é'".toList⟩ := by cbv
    show lexFrom 0 ('\x27' :: "é' + b".toList) = _
    rw [Lexeme.lexFrom_token rfl (congrArg Lexeme.Munch.token? hquoted), hquoted]
    show (lexFrom 4 [' ', '+', ' ', 'b']).map _ = _
    rw [Lexeme.lexFrom_gap rfl, Lexeme.lexFrom_stray rfl (by rfl)]
    rfl
  have hsize : byteSize "'é' ".toList = 5 := by decide
  have hplace : Report.Stands "'é' + b".toList "'é' ".toList ⟨1, "'é' + b".toList, 4⟩ :=
    (Report.locate_iff_stands (show _ = "'é' ".toList ++ "+ b".toList by decide)).mp (by decide)
  refine ⟨⟨1, "'é' + b".toList, 4⟩, ⟨1, "'é' + b".toList, 5⟩, by rw [hlex, hsize], hplace,
    rfl, rfl, ?_⟩
  rintro file _ rfl
  have hother : Report.ends? "'é' + b".toList ⟨byteSize "'é' ".toList, 6⟩
      = some (⟨1, "'é' + b".toList, 5⟩, ⟨1, "'é' + b".toList, 5⟩) := by decide
  have hheads := heads_report ⟨byteSize "'é' ".toList, 6⟩ "Unexpected character '+'" "'é' + b"
    file [] hother
  refine ⟨hheads, fun hwrong => ?_⟩
  exact absurd ((heads_iff_of_heads hheads).mp hwrong).2 (by decide)

end FormulaError

end Figures
