/-!
# Dictionaries with text keys

* `Dict α`        a finite map from text to `α`; its entries stand in strictly ascending key order,
                  so two dictionaries with the same entries are equal
* `put k v l`     the entry `(k, v)` placed into an ascending list, replacing an entry with key `k`
* `Dict.get?`     the value at a key

`get?_insert` says what insertion does to the view `get?`.
-/

namespace Figures

namespace Dict

variable {α : Type}

/-- keys ascend strictly, hence no key occurs twice -/
def Ascending (l : List (String × α)) : Prop :=
  l.Pairwise (fun a b => a.1 < b.1)

/-- the entry `(k, v)` placed into an ascending list; an entry with the same key is replaced -/
def put (k : String) (v : α) : List (String × α) → List (String × α)
  | [] => [(k, v)]
  | (j, w) :: rest =>
    if k < j then (k, v) :: (j, w) :: rest
    else if k = j then (k, v) :: rest
    else (j, w) :: put k v rest

theorem mem_put {k : String} {v : α} {e : String × α} {l : List (String × α)} :
    e ∈ put k v l → e = (k, v) ∨ e ∈ l := by
  induction l with
  | nil => simp [put]
  | cons hd tl ih =>
    obtain ⟨j, w⟩ := hd
    rw [put]
    split
    · simp
    · split
      · intro h
        rcases List.mem_cons.mp h with h | h
        · exact .inl h
        · exact .inr (List.mem_cons_of_mem _ h)
      · intro h
        rcases List.mem_cons.mp h with h | h
        · exact .inr (h ▸ List.mem_cons_self ..)
        · exact (ih h).elim .inl (fun m => .inr (List.mem_cons_of_mem _ m))

theorem lt_of_not_lt_of_ne {a b : String} (h : ¬a < b) (hne : a ≠ b) : b < a := by
  refine Decidable.byContradiction fun hb => hne ?_
  exact String.le_antisymm (String.not_lt.mp hb) (String.not_lt.mp h)

theorem ascending_put (k : String) (v : α) {l : List (String × α)} (h : Ascending l) :
    Ascending (put k v l) := by
  induction l with
  | nil => simp [put, Ascending]
  | cons hd tl ih =>
    obtain ⟨j, w⟩ := hd
    obtain ⟨hj, ht⟩ := List.pairwise_cons.mp h
    rw [put]
    split
    next hlt =>
      refine List.pairwise_cons.mpr ⟨fun e he => ?_, h⟩
      rcases List.mem_cons.mp he with he | he
      · exact he ▸ hlt
      · exact String.lt_trans hlt (hj e he)
    next hlt =>
      split
      next heq => exact List.pairwise_cons.mpr ⟨fun e he => heq ▸ hj e he, ht⟩
      next hne =>
        refine List.pairwise_cons.mpr ⟨fun e he => ?_, ih ht⟩
        rcases mem_put he with he | he
        · exact he ▸ lt_of_not_lt_of_ne hlt hne
        · exact hj e he

end Dict

/-- a finite map from text keys to values, kept in ascending key order -/
structure Dict (α : Type) where
  entries : List (String × α)
  ascending : Dict.Ascending entries

namespace Dict

variable {α β : Type}

def empty : Dict α := ⟨[], List.Pairwise.nil⟩

instance : EmptyCollection (Dict α) := ⟨empty⟩
instance : Inhabited (Dict α) := ⟨empty⟩

def insert (d : Dict α) (k : String) (v : α) : Dict α :=
  ⟨put k v d.entries, ascending_put k v d.ascending⟩

def get? (d : Dict α) (k : String) : Option α :=
  d.entries.lookup k

def contains (d : Dict α) (k : String) : Bool :=
  (d.get? k).isSome

def keys (d : Dict α) : List String := d.entries.map Prod.fst

def values (d : Dict α) : List α := d.entries.map Prod.snd

def isEmpty (d : Dict α) : Bool := d.entries.isEmpty

def size (d : Dict α) : Nat := d.entries.length

/-- the dictionary of a list of entries; of two entries with one key the later counts -/
def ofList (l : List (String × α)) : Dict α :=
  l.foldl (fun d e => d.insert e.1 e.2) empty

/-- the entry at `k` set to `v`, unless there is one already -/
def insertIfNew (d : Dict α) (k : String) (v : α) : Dict α :=
  if d.contains k then d else d.insert k v

/-- every value replaced by its image -/
def mapValues (f : String → α → β) (d : Dict α) : Dict β where
  entries := d.entries.map fun e => (e.1, f e.1 e.2)
  ascending := by
    have h := d.ascending
    unfold Ascending at *
    exact List.pairwise_map.mpr h

theorem lookup_put (k j : String) (v : α) (l : List (String × α)) :
    (put k v l).lookup j = if j = k then some v else l.lookup j := by
  induction l with
  | nil =>
    by_cases h : j = k
    · simp [put, h]
    · simp [put, List.lookup_cons, h, beq_eq_false_iff_ne.mpr h]
  | cons hd tl ih =>
    obtain ⟨i, w⟩ := hd
    rw [put]
    by_cases hjk : j = k
    · subst hjk
      split
      · simp
      · split
        · simp
        next hne => simp [List.lookup_cons, beq_eq_false_iff_ne.mpr hne, ih]
    · split
      · simp [List.lookup_cons, beq_eq_false_iff_ne.mpr hjk]
      · split
        next heq =>
          subst heq
          simp [List.lookup_cons, beq_eq_false_iff_ne.mpr hjk]
        next hne =>
          simp only [List.lookup_cons, hjk, if_false] at ih ⊢
          split <;> simp_all

theorem get?_insert (d : Dict α) (k j : String) (v : α) :
    (d.insert k v).get? j = if j = k then some v else d.get? j :=
  lookup_put k j v d.entries

end Dict

end Figures
