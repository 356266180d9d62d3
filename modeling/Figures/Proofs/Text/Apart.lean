import Figures.Proofs.Number.Decimal
import Mathlib.Data.List.Nodup

/-!
# Texts that are told apart by their beginnings

* `Apart p q`            neither text begins with the other
* `ne_of_apart`          what begins with texts that are apart is different
* `Begins ps l`          all texts of a list begin with one of `ps`
* `Numbered p q`         `q` is `p` with digits behind it
* `Kind α`               texts for entries: one beginning, and behind it what the entry gives
* `Kind.text_inj`        if the beginnings are apart, a text tells its kind and what stands behind
                         it
* `Kind.nodup`, `Kind.nodup_iff`     when nothing occurs twice among the texts of a list of entries
-/

namespace Figures

/-- neither text begins with the other -/
def Apart (p q : String) : Prop := ¬ p.toList <+: q.toList ∧ ¬ q.toList <+: p.toList

instance (p q : String) : Decidable (Apart p q) := inferInstanceAs (Decidable (_ ∧ _))

theorem Apart.symm {p q : String} (h : Apart p q) : Apart q p := And.symm h

theorem ne_of_apart {p q : String} (h : Apart p q) (s t : String) : p ++ s ≠ q ++ t := by
  intro heq
  have hp : p.toList <+: (p ++ s).toList := String.toList_append ▸ List.prefix_append _ _
  have hq : q.toList <+: (p ++ s).toList := heq ▸ String.toList_append ▸ List.prefix_append _ _
  rcases List.prefix_or_prefix_of_prefix hp hq with hpre | hpre
  · exact h.1 hpre
  · exact h.2 hpre

def Begins (ps l : List String) : Prop := ∀ s ∈ l, ∃ p ∈ ps, ∃ t, s = p ++ t

namespace Begins

variable {ps qs l m keys : List String}

theorem append (hl : Begins ps l) (hm : Begins qs m) : Begins (ps ++ qs) (l ++ m) := by
  intro s hs
  rcases List.mem_append.mp hs with hs | hs
  · obtain ⟨p, hp, t, rfl⟩ := hl s hs
    exact ⟨p, List.mem_append_left _ hp, t, rfl⟩
  · obtain ⟨p, hp, t, rfl⟩ := hm s hs
    exact ⟨p, List.mem_append_right _ hp, t, rfl⟩

theorem ite (c : Prop) [Decidable c] (hl : Begins ps l) : Begins ps (if c then l else []) := by
  split
  · exact hl
  · exact fun s hs => absurd hs List.not_mem_nil

theorem map {α : Type} (p : String) (f : α → String) (l : List α) :
    Begins [p] (l.map fun x => p ++ f x) := by
  intro s hs
  obtain ⟨x, -, rfl⟩ := List.mem_map.mp hs
  exact ⟨p, List.mem_singleton_self p, f x, rfl⟩

/-- none of the texts is one that is apart from their beginnings -/
theorem not_mem (hl : Begins ps l) (h : ∀ p ∈ ps, ∀ q ∈ keys, Apart p q) : ∀ s ∈ l, s ∉ keys := by
  intro s hs hmem
  obtain ⟨p, hp, t, rfl⟩ := hl s hs
  exact ne_of_apart (h p hp _ hmem) t "" String.append_empty.symm

/-- texts whose beginnings are apart have nothing in common -/
theorem disjoint (hl : Begins ps l) (hm : Begins qs m) (h : ∀ p ∈ ps, ∀ q ∈ qs, Apart p q) :
    l.Disjoint m := by
  intro s hs hs'
  obtain ⟨p, hp, t, rfl⟩ := hl s hs
  obtain ⟨q, hq, u, heq⟩ := hm _ hs'
  exact ne_of_apart (h p hp q hq) t u heq

end Begins

/-- behind `p` stand digits only -/
def Numbered (p q : String) : Prop :=
  p.toList <+: q.toList ∧ (q.toList.drop p.toList.length).all Char.isDigit = true

instance (p q : String) : Decidable (Numbered p q) := inferInstanceAs (Decidable (_ ∧ _))

theorem numbered_append_repr (p : String) (n : ℕ) : Numbered p (p ++ Nat.repr n) := by
  rw [Numbered, String.toList_append, List.drop_left]
  exact ⟨List.prefix_append _ _, repr_digits n⟩

/-- texts for entries: a beginning, and behind it what the entry gives -/
structure Kind (α : Type) where
  beginning : String
  rest : α → String

namespace Kind

variable {α γ : Type}

def text (k : Kind α) (e : α) : String := k.beginning ++ k.rest e

/-- texts for an entry, each of another kind -/
def Names (kinds : List (Kind α)) (f : α → List String) : Prop :=
  ∀ e, (f e).Subperm (kinds.map fun k => k.text e)

variable {kinds : List (Kind α)} {f : α → List String} {l : List α} {g : α → γ}

theorem exists_of_mem (hf : Names kinds f) {s : String} (hs : s ∈ l.flatMap f) :
    ∃ k ∈ kinds, ∃ e ∈ l, s = k.text e := by
  obtain ⟨e, he, hmem⟩ := List.mem_flatMap.mp hs
  obtain ⟨k, hk, rfl⟩ := List.mem_map.mp ((hf e).subset hmem)
  exact ⟨k, hk, e, he, rfl⟩

theorem begins (hf : Names kinds f) (l : List α) : Begins (kinds.map beginning) (l.flatMap f) := by
  intro s hs
  obtain ⟨k, hk, e, -, rfl⟩ := exists_of_mem hf hs
  exact ⟨k.beginning, List.mem_map_of_mem hk, k.rest e, rfl⟩

/-- texts that end in numbers are none of those that have something else there -/
theorem not_mem_of_numbered (hf : Names kinds f) {keys : List String}
    (hrest : ∀ k ∈ kinds, ∀ e, ∃ n, k.rest e = Nat.repr n)
    (hkeys : ∀ k ∈ kinds, ∀ q ∈ keys, ¬ Numbered k.beginning q) : ∀ s ∈ l.flatMap f, s ∉ keys := by
  rintro _ hs hmem
  obtain ⟨k, hk, e, -, rfl⟩ := exists_of_mem hf hs
  obtain ⟨n, hn⟩ := hrest k hk e
  refine hkeys k hk _ hmem ?_
  rw [text, hn]
  exact numbered_append_repr k.beginning n

section
variable (hkinds : kinds.Pairwise fun p q => Apart p.beginning q.beginning)
include hkinds

/-- a text tells its kind and what stands behind the beginning -/
theorem text_inj {p q : Kind α} (hp : p ∈ kinds) (hq : q ∈ kinds) {d e : α}
    (h : p.text d = q.text e) : p = q ∧ p.rest d = p.rest e := by
  by_cases heq : p = q
  · subst heq
    exact ⟨rfl, (String.append_right_inj p.beginning).mp h⟩
  · have : Std.Symm fun p q : Kind α => Apart p.beginning q.beginning := ⟨fun _ _ => Apart.symm⟩
    exact absurd h (ne_of_apart (hkinds.forall hp hq heq) _ _)

variable (hf : Names kinds f) (hrest : ∀ k ∈ kinds, ∀ d e, k.rest d = k.rest e → g d = g e)
include hf hrest

theorem nodup (hl : (l.map g).Nodup) : (l.flatMap f).Nodup := by
  refine List.nodup_flatMap.mpr ⟨fun e _ => ?_, ?_⟩
  · obtain ⟨some, hperm, hsub⟩ := hf e
    refine hperm.nodup_iff.mp (List.Nodup.sublist hsub (List.pairwise_map.mpr ?_))
    exact hkinds.imp fun hpq => ne_of_apart hpq _ _
  · refine (List.pairwise_map.mp hl).imp fun {d e} hne s hd he => ?_
    obtain ⟨p, hp, rfl⟩ := List.mem_map.mp ((hf d).subset hd)
    obtain ⟨q, hq, heq⟩ := List.mem_map.mp ((hf e).subset he)
    obtain ⟨rfl, hsame⟩ := text_inj hkinds hq hp heq
    exact hne (hrest q hq e d hsame).symm

/-- if one kind occurs with every entry, nothing occurs twice among the texts if and only if the
entries are told apart -/
theorem nodup_iff {k : Kind α} (hk : ∀ e ∈ l, k.text e ∈ f e)
    (hsame : ∀ d e, g d = g e → k.rest d = k.rest e) : (l.flatMap f).Nodup ↔ (l.map g).Nodup := by
  refine ⟨fun h => ?_, nodup hkinds hf hrest⟩
  refine List.pairwise_map.mpr ((List.nodup_flatMap.mp h).2.imp_of_mem
    fun {d e} hd he hdisjoint heq => ?_)
  refine hdisjoint (hk d hd) ?_
  rw [text, hsame d e heq]
  exact hk e he

end

end Kind

end Figures
