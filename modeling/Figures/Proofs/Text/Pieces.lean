import Figures.Text.Blank
import Mathlib.Data.List.DropRight

/-!
# Trimmed texts and their pieces

* `Text.toList_eq`       a text is the blanks in front, its trimmed part, and the blanks behind
* `Text.Clean s`         a text without a blank at either end, and not empty
* `Text.Trims s t`       `t` is the part of `s` between the blanks at either end
* `Text.trims_iff`       this is what trimming leaves of a text that is not blank
* `Text.Kept column v`   what is kept of a text that may be absent
* `Text.Pieces s ps`     the pieces of a text between its semicolons
* `Text.pieces_iff`      a text has one list of pieces
* `Text.entries_join`    clean pieces without a semicolon are the entries of what they are joined to
-/

namespace Figures.Text

/-! ### blanks at the ends -/

def front (s : String) : List Char := s.toList.takeWhile Figures.isBlank

def back (s : String) : List Char :=
  ((s.toList.dropWhile Figures.isBlank).reverse.takeWhile Figures.isBlank).reverse

theorem toList_eq (s : String) : s.toList = front s ++ ((trim s).toList ++ back s) := by
  rw [front, back, trim, trimEnd, String.toList_ofList, ← List.reverse_append,
    List.takeWhile_append_dropWhile, List.reverse_reverse, List.takeWhile_append_dropWhile]

theorem isBlank_of_mem_front {s : String} {c : Char} (h : c ∈ front s) : Figures.isBlank c = true :=
  List.mem_takeWhile_imp h

theorem isBlank_of_mem_back {s : String} {c : Char} (h : c ∈ back s) : Figures.isBlank c = true :=
  List.mem_takeWhile_imp (List.mem_reverse.mp h)

theorem mem_trim {s : String} {c : Char} (h : c ∈ (trim s).toList) : c ∈ s.toList := by
  rw [toList_eq s]
  exact List.mem_append_right _ (List.mem_append_left _ h)

theorem isEmpty_trim (s : String) : (Text.trim s).isEmpty = Text.isBlank s := by
  have hback : ∀ cs : List Char, trimEnd cs = [] ↔ ∀ c ∈ cs, Figures.isBlank c = true := by
    intro cs
    rw [trimEnd, List.reverse_eq_nil_iff, List.dropWhile_eq_nil_iff]
    exact forall_congr' fun c => by rw [List.mem_reverse]
  have hfront : (∀ c ∈ s.toList.dropWhile Figures.isBlank, Figures.isBlank c = true) ↔
      ∀ c ∈ s.toList, Figures.isBlank c = true := by
    refine ⟨fun hrest c hc => ?_, fun hall c hc => hall c ((List.dropWhile_sublist _).subset hc)⟩
    rw [← List.takeWhile_append_dropWhile (p := Figures.isBlank) (l := s.toList)] at hc
    exact (List.mem_append.mp hc).elim List.mem_takeWhile_imp (hrest c)
  rw [Bool.eq_iff_iff, isBlank, List.all_eq_true, ← hfront, ← hback, String.isEmpty_iff, trim]
  exact ⟨fun h => by simpa using congrArg String.toList h, fun h => by rw [h]⟩

theorem trim_of_isBlank {s : String} (h : isBlank s = true) : trim s = "" :=
  String.isEmpty_iff.mp ((isEmpty_trim s).trans h)

/-! ### clean texts -/

/-- no blank at either end, and not empty -/
structure Clean (s : String) : Prop where
  first : ∀ c ∈ s.toList.head?, Figures.isBlank c = false
  last : ∀ c ∈ s.toList.getLast?, Figures.isBlank c = false
  ne_empty : s ≠ ""

/-- `t` is the part of `s` between the blanks at either end -/
structure Trims (s t : String) : Prop where
  clean : Clean t
  blanks : ∃ front back, s.toList = front ++ (t.toList ++ back) ∧ ∀ c ∈ front ++
    back, Figures.isBlank c = true

/-- blanks around a text are trimmed, and no more than these if it has none at its ends -/
theorem trimEnd_dropWhile {front cs back : List Char}
    (hblank : ∀ c ∈ front ++ back, Figures.isBlank c = true)
    (hfirst : ∀ c ∈ cs.head?, Figures.isBlank c = false)
      (hlast : ∀ c ∈ cs.getLast?, Figures.isBlank c = false)
    (hne : cs ≠ []) : trimEnd ((front ++ (cs ++ back)).dropWhile Figures.isBlank) = cs := by
  obtain ⟨hfront, hback⟩ := List.forall_mem_append.mp hblank
  have hkeep : ∀ {l : List Char}, l ≠ [] → (∀ c ∈ l.head?, Figures.isBlank c = false) → ∀ rest,
      (l ++ rest).dropWhile Figures.isBlank = l ++ rest := by
    intro l hl hhead rest
    obtain ⟨c, l, rfl⟩ := List.exists_cons_of_ne_nil hl
    exact List.dropWhile_cons_of_neg (by simp [hhead c rfl])
  rw [List.dropWhile_append_of_pos hfront, hkeep hne hfirst, trimEnd, List.reverse_append,
    List.dropWhile_append_of_pos fun c hc => hback c (List.mem_reverse.mp hc),
    ← List.append_nil cs.reverse, hkeep (by simpa using hne) (by simpa using hlast),
    List.append_nil, List.reverse_reverse]

theorem trim_of_ends {s : String} (hfirst : ∀ c ∈ s.toList.head?, Figures.isBlank c = false)
    (hlast : ∀ c ∈ s.toList.getLast?, Figures.isBlank c = false) : trim s = s := by
  rcases eq_or_ne s.toList [] with hnil | hne
  · rw [trim, hnil]
    exact (String.toList_eq_nil_iff.mp hnil).symm
  · have hkeep : trimEnd (([] ++ (s.toList ++ [])).dropWhile Figures.isBlank) = s.toList :=
      trimEnd_dropWhile (fun _ hc => absurd hc List.not_mem_nil) hfirst hlast hne
    rw [List.nil_append, List.append_nil] at hkeep
    rw [trim, hkeep, String.ofList_toList]

theorem trim_of_not_isBlank {s : String} (h : ∀ c ∈ s.toList, Figures.isBlank c = false) :
    trim s = s :=
  trim_of_ends (fun c hc => h c (List.mem_of_mem_head? hc)) fun c hc =>
    h c (List.mem_of_mem_getLast? hc)

theorem Clean.trim {s : String} (h : Clean s) : trim s = s := trim_of_ends h.first h.last

theorem Clean.isBlank {s : String} (h : Clean s) : isBlank s = false := by
  rw [← isEmpty_trim, h.trim, Bool.eq_false_iff, Ne, String.isEmpty_iff]
  exact h.ne_empty

theorem clean_trim {s : String} (h : isBlank s = false) : Clean (trim s) := by
  have hne : trim s ≠ "" := by
    intro hempty
    rw [← isEmpty_trim, hempty] at h
    cases h
  have hlist : (trim s).toList = (s.toList.dropWhile Figures.isBlank).rdropWhile
      Figures.isBlank := by
    rw [trim, String.toList_ofList]
    rfl
  have hlistne : (trim s).toList ≠ [] := fun hnil => hne (String.toList_eq_nil_iff.mp hnil)
  refine ⟨fun c hc => ?_, fun c hc => ?_, hne⟩
  · obtain ⟨rest, hrest⟩ := List.rdropWhile_prefix Figures.isBlank
      (s.toList.dropWhile Figures.isBlank)
    have hhead := List.head?_dropWhile_not Figures.isBlank s.toList
    rw [← hrest, ← hlist, List.head?_append_of_ne_nil _ hlistne, Option.mem_def.mp hc] at hhead
    exact hhead
  · rw [List.getLast?_eq_some_getLast hlistne] at hc
    obtain rfl := Option.some.inj hc
    have hlast := List.rdropWhile_last_not Figures.isBlank (s.toList.dropWhile Figures.isBlank)
      (hlist ▸ hlistne)
    simpa only [hlist, Bool.not_eq_true] using hlast

/-- trimming leaves the part between the blanks, if a text is not blank -/
theorem trims_iff {s t : String} : Trims s t ↔ isBlank s = false ∧ trim s = t := by
  constructor
  · rintro ⟨hclean, front, back, hsplit, hblank⟩
    have hlistne : t.toList ≠ [] := fun hnil => hclean.ne_empty (String.toList_eq_nil_iff.mp hnil)
    have htrim : trim s = t := by
      rw [trim, hsplit, trimEnd_dropWhile hblank hclean.first hclean.last hlistne,
        String.ofList_toList]
    refine ⟨?_, htrim⟩
    rw [← isEmpty_trim, htrim, Bool.eq_false_iff, Ne, String.isEmpty_iff]
    exact hclean.ne_empty
  · rintro ⟨h, rfl⟩
    refine ⟨clean_trim h, front s, back s, toList_eq s,
      List.forall_mem_append.mpr ⟨fun _ => isBlank_of_mem_front, fun _ => isBlank_of_mem_back⟩⟩

theorem Clean.trims {s : String} (h : Clean s) : Trims s s := trims_iff.mpr ⟨h.isBlank, h.trim⟩

/-- what is kept of a text that may be absent: its trimmed part, unless it is blank -/
def Kept (column v : Option String) : Prop := ∀ t, v = some t ↔ ∃ s, column = some s ∧ Trims s t

theorem kept_nonBlank? (column : Option String) : Kept column (nonBlank? column) := by
  intro t
  cases column with
  | none => exact iff_of_false nofun fun ⟨_, hs, _⟩ => nomatch hs
  | some s =>
    simp only [Option.some.injEq, exists_eq_left', trims_iff]
    rw [nonBlank?, Option.map_some, Option.filter_some, isEmpty_trim]
    cases isBlank s <;> simp

theorem Kept.isBlank {column : Option String} (h : Kept column none) :
    ∀ s ∈ column, isBlank s = true := by
  intro s hs
  by_contra hblank
  have htrims : Trims s (Text.trim s) := trims_iff.mpr ⟨Bool.eq_false_iff.mpr hblank, rfl⟩
  cases (h _).mpr ⟨s, hs, htrims⟩

theorem nonBlank?_of_clean {v : Option String} (h : ∀ t ∈ v, Clean t) : nonBlank? v = v := by
  cases v with
  | none => rfl
  | some t => exact (kept_nonBlank? (some t) t).mpr ⟨t, rfl, (h t rfl).trims⟩

theorem Kept.clean {column v : Option String} (h : Kept column v) : ∀ t ∈ v, Clean t := by
  intro t ht
  obtain ⟨_, _, htrims⟩ := (h t).mp ht
  exact htrims.clean

/-! ### pieces -/

theorem splitAux_word {cut : Char → Bool} {piece word : List Char}
    (h : ∀ c ∈ word, cut c = false) :
    Text.splitAux cut piece word = [String.ofList (piece.reverse ++ word)] := by
  induction word generalizing piece with
  | nil => rw [Text.splitAux, List.append_nil]
  | cons d word ih =>
    rw [Text.splitAux, if_neg (by rw [h d List.mem_cons_self]; decide),
      ih fun e he => h e (List.mem_cons_of_mem d he), List.reverse_cons, List.append_assoc]
    rfl

theorem splitAux_append {cut : Char → Bool} {piece word : List Char}
    (h : ∀ c ∈ word, cut c = false) {c : Char} (hc : cut c = true) (rest : List Char) :
    Text.splitAux cut piece (word ++ c :: rest)
      = String.ofList (piece.reverse ++ word) :: Text.splitAux cut [] rest := by
  induction word generalizing piece with
  | nil => rw [List.nil_append, Text.splitAux, if_pos hc, List.append_nil]
  | cons d word ih =>
    rw [List.cons_append, Text.splitAux, if_neg (by rw [h d List.mem_cons_self]; decide),
      ih fun e he => h e (List.mem_cons_of_mem d he), List.reverse_cons, List.append_assoc]
    rfl

structure Pieces (s : String) (ps : List String) : Prop where
  ne_nil : ps ≠ []
  unmarked : ∀ p ∈ ps, ';' ∉ p.toList
  joined : join ";" ps = s

theorem splitAt_join {ps : List String} (hne : ps ≠ []) (h : ∀ p ∈ ps, ';' ∉ p.toList) :
    splitAt (· == ';') (join ";" ps) = ps := by
  have hword : ∀ p ∈ ps, ∀ c ∈ p.toList, (c == ';') = false := by
    intro p hp c hc
    rw [beq_eq_false_iff_ne]
    rintro rfl
    exact h p hp hc
  induction ps with
  | nil => exact absurd rfl hne
  | cons p ps ih =>
    obtain ⟨hp, hps⟩ := List.forall_mem_cons.mp hword
    cases ps with
    | nil =>
      rw [join, String.intercalate_singleton, splitAt, splitAux_word hp, List.reverse_nil,
        List.nil_append, String.ofList_toList]
    | cons q ps =>
      have hrest := ih (List.cons_ne_nil q ps) (List.forall_mem_cons.mp h).2 hps
      have hlist : (join ";" (p :: q :: ps)).toList = p.toList ++
          ';' :: (join ";" (q :: ps)).toList := by
        rw [join, String.intercalate_cons_cons, String.toList_append, String.toList_append,
          List.append_assoc]
        rfl
      rw [splitAt, hlist, splitAux_append hp rfl, List.reverse_nil, List.nil_append,
        String.ofList_toList]
      exact congrArg (p :: ·) hrest

theorem splitAux_ne_nil (cut : Char → Bool) (piece cs : List Char) :
    splitAux cut piece cs ≠ [] := by
  induction cs generalizing piece with
  | nil => exact List.cons_ne_nil _ _
  | cons c cs ih =>
    rw [splitAux]
    split
    · exact List.cons_ne_nil _ _
    · exact ih _

theorem join_splitAux (piece cs : List Char) :
    join ";" (splitAux (· == ';') piece cs) = String.ofList (piece.reverse ++ cs) := by
  induction cs generalizing piece with
  | nil => rw [splitAux, join, String.intercalate_singleton, List.append_nil]
  | cons c cs ih =>
    rw [splitAux]
    split
    · rename_i hc
      obtain rfl := eq_of_beq hc
      obtain ⟨q, qs, hqs⟩ := List.exists_cons_of_ne_nil (splitAux_ne_nil (· == ';') [] cs)
      have hrest := ih []
      rw [hqs] at hrest ⊢
      rw [join, String.intercalate_cons_cons, ← join, hrest, List.reverse_nil, List.nil_append,
        ← String.toList_inj]
      simp
    · rw [ih, List.reverse_cons, List.append_assoc, List.singleton_append]

theorem unmarked_splitAux {piece cs : List Char} (hpiece : ';' ∉ piece) :
    ∀ p ∈ splitAux (· == ';') piece cs, ';' ∉ p.toList := by
  induction cs generalizing piece with
  | nil =>
    rw [splitAux, List.forall_mem_singleton]
    simpa using hpiece
  | cons c cs ih =>
    rw [splitAux]
    split
    · exact List.forall_mem_cons.mpr ⟨by simpa using hpiece, ih List.not_mem_nil⟩
    · rename_i hc
      refine ih fun hmem => ?_
      rcases List.mem_cons.mp hmem with rfl | hmem
      · exact hc rfl
      · exact hpiece hmem

theorem pieces_iff {s : String} {ps : List String} : Pieces s ps ↔ splitAt (· == ';') s = ps := by
  constructor
  · rintro ⟨hne, hunmarked, rfl⟩
    exact splitAt_join hne hunmarked
  · rintro rfl
    refine ⟨splitAux_ne_nil _ _ _, unmarked_splitAux List.not_mem_nil, ?_⟩
    rw [splitAt, join_splitAux, List.reverse_nil, List.nil_append, String.ofList_toList]

theorem Pieces.entries_eq {s : String} {ps : List String} (h : Pieces s ps) :
    entries s = (ps.filter fun p => !isBlank p).map trim := by
  rw [entries, pieces_iff.mp h, List.filter_map]
  refine congrArg _ (List.filter_congr fun p _ => ?_)
  exact congrArg not (isEmpty_trim p)

theorem clean_of_mem_entries {s t : String} (h : t ∈ entries s) : Clean t ∧ ';' ∉ t.toList := by
  have hpieces : Pieces s (splitAt (· == ';') s) := pieces_iff.mpr rfl
  rw [hpieces.entries_eq] at h
  obtain ⟨p, hp, rfl⟩ := List.mem_map.mp h
  obtain ⟨hmem, hblank⟩ := List.mem_filter.mp hp
  exact ⟨clean_trim (by simpa using hblank), fun hmark => hpieces.unmarked p hmem (mem_trim hmark)⟩

theorem entries_join {ts : List String} (h : ∀ t ∈ ts, Clean t ∧ ';' ∉ t.toList) :
    entries (join ";" ts) = ts := by
  rcases eq_or_ne ts [] with rfl | hne
  · rfl
  · have hpieces : Pieces (join ";" ts) ts := ⟨hne, fun t ht => (h t ht).2, rfl⟩
    have hkeep : ts.filter (fun t => !isBlank t) = ts :=
      List.filter_eq_self.mpr fun t ht => by rw [(h t ht).1.isBlank]; rfl
    rw [hpieces.entries_eq, hkeep]
    exact (List.map_congr_left fun t ht => (h t ht).1.trim).trans (List.map_id ts)

end Figures.Text
