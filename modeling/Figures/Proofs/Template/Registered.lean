import Figures.Figure.Kind
import Figures.Proofs.Dict
import Mathlib.Data.List.Destutter

/-!
# Galleries behind a history of registrations

* `Gallery.mem_of_get?_ofList`   a gallery of a list holds templates of that list, under their ids
* `Gallery.get?_ofList_of_mem`   it holds all of them if no two have one id
* `Gallery.newest history id`    the last template of a history with an id
* `Gallery.Records g history`    a gallery finds the newest template under each id, and nothing else
* `Records.register`, `Records.foldl_register`   a registration is one template more at the end of
  the history; so it is with any number of them
* `eraseReps_mergeSort`          sorted and rid of repetitions, a list of texts is ascending
* `Gallery.Latest history t`     no template behind `t` in the history has its id
* `Gallery.Consistent g history` what the views of a gallery show of the history, and how they fit
                                 together
* `Gallery.consistent_foldl_register`   the views behind any run, from the empty gallery or from
  that of all kinds
-/

namespace Figures

namespace Gallery

theorem get?_register (g : Gallery) (t : Template) (id : String) :
    (g.register t).get? id = if id = t.id then some t else g.get? id :=
  Dict.get?_insert g.templates t.id id t

theorem get?_foldl_register {ts : List Template} {g : Gallery} {id : String} {t : Template}
    (h : (ts.foldl register g).get? id = some t) : (t ∈ ts ∧ t.id = id) ∨ g.get? id = some t := by
  induction ts generalizing g with
  | nil => exact .inr h
  | cons u ts ih =>
    rcases ih h with ⟨hmem, hid⟩ | hget
    · exact .inl ⟨List.mem_cons_of_mem u hmem, hid⟩
    · rw [get?_register] at hget
      split at hget
      · rename_i hid
        cases hget
        exact .inl ⟨List.mem_cons_self, hid.symm⟩
      · exact .inr hget

theorem mem_of_get?_ofList {ts : List Template} {id : String} {t : Template}
    (h : (ofList ts).get? id = some t) : t ∈ ts ∧ t.id = id :=
  (get?_foldl_register h).resolve_right fun hempty => by cases hempty

/-- under the id of one of them, a gallery of templates with ids of their own holds that one -/
theorem get?_ofList_of_mem {ts : List Template} (hids : (ts.map Template.id).Nodup) {t : Template}
    (ht : t ∈ ts) :
    (ofList ts).get? t.id = some t := by
  have hother : ∀ {ts : List Template} {g : Gallery}, t.id ∉ ts.map Template.id →
      (ts.foldl register g).get? t.id = g.get? t.id := by
    intro ts g hnone
    induction ts generalizing g with
    | nil => rfl
    | cons u ts ih =>
      rw [List.map_cons, List.mem_cons, not_or] at hnone
      rw [List.foldl_cons, ih hnone.2, get?_register, if_neg hnone.1]
  have hall : ∀ g : Gallery, (ts.foldl register g).get? t.id = some t := by
    induction ts with
    | nil => cases ht
    | cons u ts ih =>
      intro g
      obtain ⟨hnone, hrest⟩ := List.nodup_cons.mp hids
      rcases List.mem_cons.mp ht with rfl | ht
      · rw [List.foldl_cons, hother hnone, get?_register, if_pos rfl]
      · exact ih hrest ht (g.register u)
  exact hall .empty

end Gallery

/-! ### texts, each once -/

theorem eraseReps_eq_destutter {α : Type} [BEq α] [LawfulBEq α] [DecidableEq α] (l : List α) :
    l.eraseReps = l.destutter (· ≠ ·) := by
  have hloop : ∀ (l kept : List α) (a : α),
      List.eraseRepsBy.loop (· == ·) a l kept = kept.reverse ++ l.destutter' (· ≠ ·) a := by
    intro l
    induction l with
    | nil => exact fun kept a => List.reverse_cons
    | cons b l ih =>
      intro kept a
      rw [List.eraseRepsBy.loop, List.destutter'_cons]
      split
      · rename_i heq
        rw [if_neg (not_not.mpr (eq_of_beq heq)), ih]
      · rename_i hne
        rw [if_pos (by simpa using hne), ih, List.reverse_cons, List.append_assoc,
          List.singleton_append]
  cases l with
  | nil => rfl
  | cons a l => exact hloop l [] a

/-- behind the sorting, texts that are the same stand side by side -/
theorem eraseReps_mergeSort (l : List String) :
    l.mergeSort.eraseReps.Pairwise (· < ·) ∧ ∀ s, s ∈ l.mergeSort.eraseReps ↔ s ∈ l := by
  have htrans : ∀ a b c : String, decide (a ≤ b) = true → decide (b ≤ c) = true →
      decide (a ≤ c) = true := by
    simpa only [decide_eq_true_eq] using fun a b c => String.le_trans
  have htotal : ∀ a b : String, (decide (a ≤ b) || decide (b ≤ a)) = true := by
    simpa only [Bool.or_eq_true, decide_eq_true_eq] using String.le_total
  have hsorted : l.mergeSort.Pairwise (· ≤ ·) :=
    (List.pairwise_mergeSort htrans htotal l).imp of_decide_eq_true
  have hdedup : l.mergeSort.eraseReps = l.mergeSort.dedup := by
    rw [eraseReps_eq_destutter, hsorted.destutter_eq_dedup]
  rw [hdedup]
  constructor
  · exact ((hsorted.sublist (List.dedup_sublist _)).and (List.nodup_dedup _)).imp fun h =>
      Std.lt_of_le_of_ne h.1 h.2
  · intro s
    rw [List.mem_dedup, List.mem_mergeSort]

namespace Gallery

/-! ### histories -/

def newest (history : List Template) (id : String) : Option Template :=
  history.reverse.find? fun t => t.id == id

theorem newest_append (history later : List Template) (id : String) :
    newest (history ++ later) id = (newest later id).or (newest history id) := by
  rw [newest, List.reverse_append, List.find?_append]
  rfl

theorem newest_singleton (t : Template) (id : String) :
    newest [t] id = if id = t.id then some t else none := by
  rw [newest, List.reverse_singleton, List.find?_singleton]
  exact if_congr (beq_iff_eq.trans eq_comm) rfl rfl

/-- `t` is in the history, and no template behind it has its id -/
def Latest (history : List Template) (t : Template) : Prop :=
  ∃ earlier later, history = earlier ++ t :: later ∧ ∀ u ∈ later, u.id ≠ t.id

theorem latest_concat (history : List Template) (t : Template) : Latest (history ++ [t]) t :=
  ⟨history, [], rfl, fun _ hu => absurd hu List.not_mem_nil⟩

theorem newest_eq_some_iff {history : List Template} {id : String} {t : Template} :
    newest history id = some t ↔ Latest history t ∧ t.id = id := by
  rw [newest, List.find?_eq_some_iff_append, beq_iff_eq, and_comm]
  refine and_congr_left fun hid => ?_
  subst hid
  constructor
  · rintro ⟨later, earlier, hsplit, hlater⟩
    refine ⟨earlier.reverse, later.reverse, ?_, fun u hu => ?_⟩
    · rw [← List.reverse_reverse history, hsplit]
      simp
    · simpa using hlater u (List.mem_reverse.mp hu)
  · rintro ⟨earlier, later, rfl, hlater⟩
    exact ⟨later.reverse, earlier.reverse, by simp, fun u hu =>
      by simpa using hlater u (List.mem_reverse.mp hu)⟩

theorem isSome_newest_iff {history : List Template} {id : String} :
    (newest history id).isSome ↔ ∃ t ∈ history, t.id = id := by
  simp only [newest, List.find?_isSome, List.mem_reverse, beq_iff_eq]

/-- under each id a gallery finds the newest template of a history -/
def Records (g : Gallery) (history : List Template) : Prop := ∀ id, g.get? id = newest history id

theorem records_empty : Records .empty [] := fun _ => rfl

namespace Records

variable {g : Gallery} {history : List Template}

/-- one registration more -/
theorem register (h : g.Records history) (t : Template) : (g.register t).Records
    (history ++ [t]) := by
  intro id
  rw [get?_register, newest_append, newest_singleton, h id]
  split <;> rfl

/-- any number of registrations -/
theorem foldl_register (h : g.Records history) (ts : List Template) :
    (ts.foldl Gallery.register g).Records (history ++ ts) := by
  induction ts generalizing g history with
  | nil => rwa [List.append_nil]
  | cons t ts ih =>
    rw [List.foldl_cons, ← List.singleton_append, ← List.append_assoc]
    exact ih (h.register t)

end Records

theorem records_standard : Records .standard (FigureKind.all.map FigureKind.template) :=
  records_empty.foldl_register _

/-! ### views -/

/-- what the views of a gallery show of a history, and how they fit together -/
structure Consistent (g : Gallery) (history : List Template) : Prop where
  /-- the last template with an id is found -/
  found : ∀ id t, g.get? id = some t ↔ Latest history t ∧ t.id = id
  /-- nothing is found if there is none -/
  absent : ∀ id, g.get? id = none ↔ ∀ t ∈ history, t.id ≠ id
  contains : ∀ id, g.contains id = (g.get? id).isSome
  /-- each id of the history stands once in the list of ids -/
  ids_ascending : g.ids.Pairwise (· < ·)
  mem_ids : ∀ id, id ∈ g.ids ↔ ∃ t ∈ history, t.id = id
  /-- the templates stand in the order of their ids -/
  all_ids : g.all.map Template.id = g.ids
  mem_all : ∀ t, t ∈ g.all ↔ Latest history t
  size : g.size = g.ids.length
  categories_ascending : g.categories.Pairwise (· < ·)
  mem_categories : ∀ c, c ∈ g.categories ↔ ∃ t ∈ g.all, t.category = c
  /-- each template is listed once, under its own category -/
  mem_byCategory : ∀ c t, t ∈ g.byCategory c ↔ t ∈ g.all ∧ t.category = c
  byCategory_ascending : ∀ c, ((g.byCategory c).map Template.id).Pairwise (· < ·)
  partition : (g.categories.flatMap g.byCategory).Perm g.all

namespace Records

variable {g : Gallery} {history : List Template} (h : g.Records history)
include h

theorem found (id : String) (t : Template) : g.get? id = some t ↔ Latest history t ∧ t.id = id := by
  rw [h id, newest_eq_some_iff]

theorem mem_ids (id : String) : id ∈ g.ids ↔ ∃ t ∈ history, t.id = id := by
  rw [ids, Dict.mem_keys_iff, ← isSome_newest_iff, ← h id]
  rfl

theorem id_of_mem {e : String × Template} (he : e ∈ g.templates.entries) : e.2.id = e.1 :=
  ((h.found e.1 e.2).mp (Dict.get?_eq_some_iff.mpr he)).2

theorem all_ids : g.all.map Template.id = g.ids := by
  rw [all, ids, Dict.values, Dict.keys, List.map_map]
  exact List.map_congr_left fun e he => h.id_of_mem he

theorem mem_all (t : Template) : t ∈ g.all ↔ Latest history t := by
  rw [← and_iff_left (a := Latest history t) (b := t.id = t.id) rfl, ← h.found t.id t]
  constructor
  · intro ht
    obtain ⟨e, he, rfl⟩ := List.mem_map.mp ht
    rw [h.id_of_mem he]
    exact Dict.get?_eq_some_iff.mpr he
  · exact fun hget => List.mem_map.mpr ⟨(t.id, t), Dict.get?_eq_some_iff.mp hget, rfl⟩

theorem all_ascending : (g.all.map Template.id).Pairwise (· < ·) := by
  rw [h.all_ids]
  exact g.templates.keys_ascending

end Records

theorem mem_categories (g : Gallery) (c : String) : c ∈ g.categories ↔
    ∃ t ∈ g.all, t.category = c := by
  rw [categories, (eraseReps_mergeSort _).2, List.mem_map]

theorem categories_ascending (g : Gallery) : g.categories.Pairwise (· < ·) :=
    (eraseReps_mergeSort _).1

theorem mem_byCategory (g : Gallery) (c : String) (t : Template) :
    t ∈ g.byCategory c ↔ t ∈ g.all ∧ t.category = c := by
  rw [byCategory, List.mem_filter, beq_iff_eq]

theorem flatMap_byCategory_perm {g : Gallery} (hall : g.all.Nodup) :
    (g.categories.flatMap g.byCategory).Perm g.all := by
  have hcategories : g.categories.Nodup := g.categories_ascending.imp fun hlt => Std.ne_of_lt hlt
  have hnodup : (g.categories.flatMap g.byCategory).Nodup := by
    refine List.nodup_flatMap.mpr ⟨fun c _ => hall.filter _,
      hcategories.imp fun hne t ht ht' => hne ?_⟩
    exact ((g.mem_byCategory _ t).mp ht).2.symm.trans ((g.mem_byCategory _ t).mp ht').2
  refine (List.perm_ext_iff_of_nodup hnodup hall).mpr fun t => ?_
  simp only [List.mem_flatMap, mem_categories, mem_byCategory]
  constructor
  · rintro ⟨-, -, ht, -⟩
    exact ht
  · exact fun ht => ⟨t.category, ⟨t, ht, rfl⟩, ht, rfl⟩

theorem Records.consistent {g : Gallery} {history : List Template} (h : g.Records history) :
    g.Consistent history where
  found := h.found
  absent id := by
    rw [h id, ← Option.not_isSome_iff_eq_none, isSome_newest_iff, not_exists]
    exact forall_congr' fun t => not_and
  contains _ := rfl
  ids_ascending := g.templates.keys_ascending
  mem_ids := h.mem_ids
  all_ids := h.all_ids
  mem_all := h.mem_all
  size := (List.length_map _).symm
  categories_ascending := g.categories_ascending
  mem_categories := g.mem_categories
  mem_byCategory := g.mem_byCategory
  byCategory_ascending _ := h.all_ascending.sublist (List.filter_sublist.map Template.id)
  partition := flatMap_byCategory_perm (List.Nodup.of_map Template.id
    (h.all_ascending.imp Std.ne_of_lt))

/-- a template that is registered takes the place of any other with its id, whatever its category
was -/
theorem Records.eq_of_mem_register {g : Gallery} {history : List Template} (h : g.Records history)
    {t u : Template} {c : String} (hu : u ∈ (g.register t).byCategory c) (hid : u.id = t.id) :
      u = t ∧ t.category = c := by
  obtain ⟨hall, hcategory⟩ := (mem_byCategory _ c u).mp hu
  have hget := ((h.register t).found u.id u).mpr ⟨((h.register t).mem_all u).mp hall, rfl⟩
  rw [get?_register, if_pos hid] at hget
  obtain rfl := Option.some.inj hget
  exact ⟨rfl, hcategory⟩

/-- **The views of a gallery fit together behind any run of registrations**, from the empty gallery
or from that of all kinds. Under each id the last template is found that was registered under it.
The templates and their ids stand in ascending order, each once. The categories stand in ascending
order too, each once, and part the templates, so a template of a category is not listed any more
when another one with its id takes its place. -/
theorem consistent_foldl_register {g : Gallery} {start : List Template}
    (hstart : g = .empty ∧ start = [] ∨
      g = .standard ∧ start = FigureKind.all.map FigureKind.template)
    (ts : List Template) :
    (ts.foldl register g).Consistent (start ++ ts) ∧
      ∀ t u c, u ∈ ((ts.foldl register g).register t).byCategory c → u.id = t.id →
        u = t ∧ t.category = c := by
  have hrecords : g.Records start := by
    rcases hstart with ⟨rfl, rfl⟩ | ⟨rfl, rfl⟩
    · exact records_empty
    · exact records_standard
  have hrun := hrecords.foldl_register ts
  exact ⟨hrun.consistent, fun t u c => hrun.eq_of_mem_register⟩

def otherCircle : Template := { FigureKind.circle.template with category := "drafts" }

theorem consistent_foldl_register_circle :
    (Gallery.standard = .standard ∧
      FigureKind.all.map FigureKind.template = FigureKind.all.map FigureKind.template) ∧
    (([otherCircle].foldl register .standard).get? "math.geometry.circle.v1").map Template.category
      = some "drafts" ∧
    (∀ u ∈ (Gallery.standard.register otherCircle).byCategory "geometry", u.id ≠ otherCircle.id) ∧
    "drafts" ∈ (Gallery.standard.register otherCircle).categories := by
  have hstart : Gallery.standard = .empty ∧ FigureKind.all.map FigureKind.template = [] ∨
      Gallery.standard = .standard ∧
        FigureKind.all.map FigureKind.template = FigureKind.all.map FigureKind.template :=
        .inr ⟨rfl, rfl⟩
  have hviews := (consistent_foldl_register hstart [otherCircle]).1
  have hreplaced := (consistent_foldl_register hstart []).2
  rw [List.foldl_nil] at hreplaced
  have hlatest := latest_concat (FigureKind.all.map FigureKind.template) otherCircle
  have hid : otherCircle.id = "math.geometry.circle.v1" := rfl
  refine ⟨⟨rfl, rfl⟩, ?_, fun u hu hsame => ?_, ?_⟩
  · rw [(hviews.found _ otherCircle).mpr ⟨hlatest, hid⟩]
    rfl
  · exact absurd (hreplaced otherCircle u "geometry" hu hsame).2 (by decide)
  · rw [List.foldl_cons, List.foldl_nil] at hviews
    exact (hviews.mem_categories "drafts").mpr ⟨otherCircle,
      (hviews.mem_all otherCircle).mpr hlatest, rfl⟩

end Gallery

end Figures
