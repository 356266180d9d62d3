import Figures.Dict
import Mathlib.Data.List.Sort

/-!
# The entries of dictionaries

* `Dict.get?_eq_some_iff`  a value is found if and only if it is one of an entry
* `Dict.ext_get?`          dictionaries with the same values are equal
* `Dict.mem_of_mem_ofList` the entries of a dictionary are those of the list it is made of
* `Dict.ofList_entries`    a dictionary is made of its entries
* `Dict.mem_keys_iff`      the keys are those under which a value is found
* `Dict.before`, `after`   the entries on both sides of a key
* `Dict.entries_eq`        the entries are those before a key, the one at it, and those after it
-/

namespace Figures.Dict

variable {α : Type}

theorem mem_of_lookup {k : String} {v : α} {l : List (String × α)} (h : l.lookup k = some v) :
    (k, v) ∈ l := by
  induction l with
  | nil => cases h
  | cons e l ih =>
    obtain ⟨j, w⟩ := e
    rw [List.lookup_cons] at h
    split at h
    · rename_i heq
      cases h
      rw [eq_of_beq heq]
      exact List.mem_cons_self
    · exact List.mem_cons_of_mem _ (ih h)

theorem mem_of_get? {d : Dict α} {k : String} {v : α} (h : d.get? k = some v) :
    (k, v) ∈ d.entries := mem_of_lookup h

theorem lookup_eq_none {k : String} {l : List (String × α)} (h : ∀ e ∈ l, e.1 ≠ k) :
    l.lookup k = none := by
  induction l with
  | nil => rfl
  | cons e l ih =>
    obtain ⟨he, hl⟩ := List.forall_mem_cons.mp h
    rw [List.lookup_cons, beq_eq_false_iff_ne.mpr (Ne.symm he)]
    exact ih hl

theorem lookup_of_mem {k : String} {v : α} {l : List (String × α)} (hl : Ascending l)
    (hmem : (k, v) ∈ l) : l.lookup k = some v := by
  induction l with
  | nil => exact absurd hmem List.not_mem_nil
  | cons e l ih =>
    obtain ⟨he, hl⟩ := List.pairwise_cons.mp hl
    rw [List.lookup_cons]
    rcases List.mem_cons.mp hmem with rfl | hmem
    · rw [beq_self_eq_true]
    · have hne : k ≠ e.1 := (Std.ne_of_lt (he _ hmem)).symm
      rw [beq_eq_false_iff_ne.mpr hne]
      exact ih hl hmem

theorem get?_eq_some_iff {d : Dict α} {k : String} {v : α} :
    d.get? k = some v ↔ (k, v) ∈ d.entries := ⟨mem_of_get?, lookup_of_mem d.ascending⟩

theorem Ascending.eq_of_mem_iff {l l' : List (String × α)} (hl : Ascending l) (hl' : Ascending l')
    (h : ∀ e, e ∈ l ↔ e ∈ l') : l = l' := by
  have : Std.Antisymm fun a b : String × α => a.1 < b.1 :=
    ⟨fun _ _ hab hba => absurd hba (String.lt_asymm hab)⟩
  have : Std.Irrefl fun a b : String × α => a.1 < b.1 := ⟨fun _ => String.lt_irrefl _⟩
  exact List.Pairwise.eq_of_mem_iff hl hl' h

theorem ext_get? {d d' : Dict α} (h : ∀ k, d.get? k = d'.get? k) : d = d' := by
  have hentries : d.entries = d'.entries := by
    refine d.ascending.eq_of_mem_iff d'.ascending fun e => ?_
    rw [← get?_eq_some_iff (k := e.1), ← get?_eq_some_iff, h]
  cases d
  cases d'
  cases hentries
  rfl

theorem mem_foldl_insert {l : List (String × α)} {d : Dict α} {e : String × α}
    (h : e ∈ (l.foldl (fun d e => d.insert e.1 e.2) d).entries) : e ∈ l ∨ e ∈ d.entries := by
  induction l generalizing d with
  | nil => exact .inr h
  | cons x l ih =>
    rcases ih h with hmem | hmem
    · exact .inl (List.mem_cons_of_mem x hmem)
    · rcases mem_put hmem with rfl | hmem
      · exact .inl List.mem_cons_self
      · exact .inr hmem

theorem mem_of_mem_ofList {l : List (String × α)} {e : String × α}
    (h : e ∈ (ofList l).entries) : e ∈ l :=
  (mem_foldl_insert h).resolve_right List.not_mem_nil

/-- an entry above all others is placed at the end -/
theorem put_of_forall_lt {k : String} {v : α} {l : List (String × α)} (h : ∀ e ∈ l, e.1 < k) :
    put k v l = l ++ [(k, v)] := by
  induction l with
  | nil => rfl
  | cons e l ih =>
    obtain ⟨he, hl⟩ := List.forall_mem_cons.mp h
    have hne : k ≠ e.1 := fun heq => String.lt_irrefl _ (heq ▸ he)
    rw [put, if_neg (String.lt_asymm he), if_neg hne, ih hl, List.cons_append]

/-- entries in ascending order are placed one behind the other -/
theorem entries_foldl_insert {l : List (String × α)} {d : Dict α}
    (h : Ascending (d.entries ++ l)) :
    (l.foldl (fun d e => d.insert e.1 e.2) d).entries = d.entries ++ l := by
  induction l generalizing d with
  | nil => exact (List.append_nil _).symm
  | cons e l ih =>
    have hlast : (d.insert e.1 e.2).entries = d.entries ++ [e] :=
      put_of_forall_lt fun x hx => (List.pairwise_append.mp h).2.2 x hx e List.mem_cons_self
    rw [List.foldl_cons, ih, hlast, List.append_assoc, List.singleton_append]
    rwa [hlast, List.append_assoc, List.singleton_append]

theorem ofList_entries (d : Dict α) : ofList d.entries = d := by
  have hentries : (ofList d.entries).entries = d.entries :=
    entries_foldl_insert (d := empty) d.ascending
  cases h : ofList d.entries with
  | mk entries ascending =>
    rw [h] at hentries
    cases d
    cases hentries
    rfl

/-! ### keys -/

theorem keys_ascending (d : Dict α) : d.keys.Pairwise (· < ·) := List.pairwise_map.mpr d.ascending

theorem mem_keys_iff {d : Dict α} {k : String} : k ∈ d.keys ↔ (d.get? k).isSome := by
  rw [keys, List.mem_map, Option.isSome_iff_exists]
  constructor
  · rintro ⟨e, he, rfl⟩
    exact ⟨e.2, get?_eq_some_iff.mpr he⟩
  · rintro ⟨v, hv⟩
    exact ⟨(k, v), mem_of_get? hv, rfl⟩

/-! ### the entries around a key -/

def before (d : Dict α) (k : String) : List (String × α) := d.entries.filter fun e => e.1 < k

def after (d : Dict α) (k : String) : List (String × α) := d.entries.filter fun e => k < e.1

def entryAt (d : Dict α) (k : String) : List (String × α) := ((d.get? k).map (Prod.mk k)).toList

theorem entryAt_of_get? {d : Dict α} {k : String} {v : α} (h : d.get? k = some v) :
    d.entryAt k = [(k, v)] := by
  rw [entryAt, h]
  rfl

theorem entryAt_of_none {d : Dict α} {k : String} (h : d.get? k = none) : d.entryAt k = [] := by
  rw [entryAt, h]
  rfl

theorem mem_before {d : Dict α} {k : String} {e : String × α} :
    e ∈ d.before k ↔ e ∈ d.entries ∧ e.1 < k := by
  rw [before, List.mem_filter, decide_eq_true_iff]

theorem mem_after {d : Dict α} {k : String} {e : String × α} :
    e ∈ d.after k ↔ e ∈ d.entries ∧ k < e.1 := by
  rw [after, List.mem_filter, decide_eq_true_iff]

theorem mem_entryAt {d : Dict α} {k : String} {e : String × α} :
    e ∈ d.entryAt k ↔ e ∈ d.entries ∧ e.1 = k := by
  rw [entryAt, Option.mem_toList, Option.map_eq_some_iff]
  constructor
  · rintro ⟨v, hv, rfl⟩
    exact ⟨mem_of_get? hv, rfl⟩
  · rintro ⟨hmem, rfl⟩
    exact ⟨e.2, get?_eq_some_iff.mpr hmem, rfl⟩

/-- the entries on both sides of a key have other keys -/
theorem ne_of_mem_around {d : Dict α} {k : String} {e : String × α}
    (h : e ∈ d.before k ∨ e ∈ d.after k) : e.1 ≠ k := by
  rintro rfl
  rcases h with h | h
  · exact String.lt_irrefl _ (mem_before.mp h).2
  · exact String.lt_irrefl _ (mem_after.mp h).2

theorem entries_eq (d : Dict α) (k : String) :
    d.entries = d.before k ++ d.entryAt k ++ d.after k := by
  have hat : Ascending (d.entryAt k) := by
    unfold entryAt
    cases d.get? k with
    | none => exact List.Pairwise.nil
    | some v => exact List.pairwise_singleton _ _
  have hfront : Ascending (d.before k ++ d.entryAt k) := by
    refine List.pairwise_append.mpr ⟨d.ascending.filter _, hat, fun a ha b hb => ?_⟩
    exact (mem_entryAt.mp hb).2 ▸ (mem_before.mp ha).2
  have hall : Ascending (d.before k ++ d.entryAt k ++ d.after k) := by
    refine List.pairwise_append.mpr ⟨hfront, d.ascending.filter _, fun a ha b hb => ?_⟩
    have hb := (mem_after.mp hb).2
    rcases List.mem_append.mp ha with ha | ha
    · exact String.lt_trans (mem_before.mp ha).2 hb
    · exact (mem_entryAt.mp ha).2 ▸ hb
  refine d.ascending.eq_of_mem_iff hall fun e => ?_
  rw [List.mem_append, List.mem_append, mem_before, mem_entryAt, mem_after, ← and_or_left,
    ← and_or_left]
  refine (and_iff_left ?_).symm
  by_cases hlt : e.1 < k
  · exact .inl (.inl hlt)
  · by_cases heq : e.1 = k
    · exact .inl (.inr heq)
    · exact .inr (lt_of_not_lt_of_ne hlt heq)

/-- dictionaries that agree off a key have the same entries on both sides of it -/
theorem around_congr {d d' : Dict α} {k : String} (h : ∀ j, j ≠ k → d.get? j = d'.get? j) :
    d.before k = d'.before k ∧ d.after k = d'.after k := by
  have hmem : ∀ e : String × α, e.1 ≠ k → (e ∈ d.entries ↔ e ∈ d'.entries) := by
    intro e he
    rw [← get?_eq_some_iff (k := e.1), ← get?_eq_some_iff, h e.1 he]
  constructor
  · refine Ascending.eq_of_mem_iff (d.ascending.filter _) (d'.ascending.filter _) fun e => ?_
    show e ∈ d.before k ↔ e ∈ d'.before k
    rw [mem_before, mem_before]
    exact and_congr_left fun hlt => hmem e (Std.ne_of_lt hlt)
  · refine Ascending.eq_of_mem_iff (d.ascending.filter _) (d'.ascending.filter _) fun e => ?_
    show e ∈ d.after k ↔ e ∈ d'.after k
    rw [mem_after, mem_after]
    exact and_congr_left fun hlt => hmem e (Std.ne_of_lt hlt).symm

/-- a run through two dictionaries gives the same if it gives nothing where they differ -/
theorem flatMap_congr {γ : Type} {g : String × α → List γ} {d d' : Dict α}
    (h : ∀ k, d.get? k = d'.get? k ∨ ∀ v, g (k, v) = []) :
    d.entries.flatMap g = d'.entries.flatMap g := by
  classical
  -- both run through the same entries if those that give nothing are left out
  have hskip : ∀ l : List (String × α),
      l.flatMap g = (l.filter fun e => g e ≠ []).flatMap g := by
    intro l
    induction l with
    | nil => rfl
    | cons e l ih =>
      rw [List.flatMap_cons, List.filter_cons, ih]
      by_cases he : g e = []
      · rw [he, if_neg (by simp), List.nil_append]
      · rw [if_pos (by simpa using he), List.flatMap_cons]
  rw [hskip d.entries, hskip d'.entries]
  refine congrArg (List.flatMap g) ?_
  refine Ascending.eq_of_mem_iff (d.ascending.filter _) (d'.ascending.filter _) fun e => ?_
  rw [List.mem_filter, List.mem_filter]
  refine and_congr_left fun he => ?_
  rw [← get?_eq_some_iff (k := e.1), ← get?_eq_some_iff,
    (h e.1).resolve_right fun hnone => of_decide_eq_true he (hnone e.2)]

end Figures.Dict
