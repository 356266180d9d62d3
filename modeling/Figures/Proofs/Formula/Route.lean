import Figures.Proofs.Except
import Figures.Proofs.Formula.Quoting
import Figures.Proofs.Formula.Steps
import Figures.Proofs.Text.Pieces

/-!
# Paths as texts

* `Route`, `Route.text`     a chain of steps that begins with a key, and its text
* `Route.read_text_iff`     what the text of a route is read as
* `Route.Readable`          the routes whose text is read as the route
* `Route.found`             what stands at the end of a route
* `Route.text_exact`        the text of a route is read as the route, and finds what stands at its
                            end, if and only if the route is readable
-/

namespace Figures

open Figures.Derivation (dotted)
open Step (spelled lexed)

/-- a chain of steps; the first one is a key -/
structure Route where
  head : String
  named : Lexeme.isName head = true
  tail : List Step

namespace Route

variable (r : Route)

def steps : List Step := .key r.head r.named :: r.tail

def segments : List String := r.steps.map Step.shown

def text : String := Text.join "." r.segments

/-- what stands at the end of the route -/
def follow (v : Json) : Option Json := r.steps.foldlM Step.follow v

/-- the routes whose text is read as the route: no two places stand in a row, and all are kept -/
structure Readable : Prop where
  apart : r.tail.IsChain Step.Apart
  kept : ∀ n, .place n ∈ r.tail → Kept n

variable {r}

theorem toList_join (s : String) (steps : List Step) :
    (Text.join "." (s :: steps.map Step.shown)).toList = s.toList ++ spelled steps := by
  induction steps generalizing s with
  | nil =>
    rw [List.map_nil, Text.join, String.intercalate_singleton]
    exact (List.append_nil _).symm
  | cons t steps ih =>
    have hjoin : Text.join "." (s :: t.shown :: steps.map Step.shown)
        = s ++ "." ++ Text.join "." (t.shown :: steps.map Step.shown) :=
      String.intercalate_cons_cons
    rw [List.map_cons, hjoin, String.toList_append, String.toList_append, ih, Step.spelled_cons,
      List.append_assoc]
    rfl

theorem toList_text (r : Route) : r.text.toList = r.head.toList ++ spelled r.tail :=
  toList_join r.head r.tail

/-- the text of a route is read as a path, or not at all -/
theorem read_text_iff (f : Formula) : Formula.read r.text = .ok f ↔
    ∃ keys : List PathKey, dotted keys = lexed r.tail ∧
      f = .path (r.head :: keys.map PathKey.shown) := by
  obtain ⟨ls, hlex, htokens⟩ :=
    Lexes.name r.named (Step.stops_spelled (by decide) r.tail) (Step.lexes_spelled r.tail) 0
  have hread : Formula.read r.text = Reader.start.run r.text.utf8ByteSize ls := by
    rw [Formula.read_eq_run, Lexeme.lex, toList_text, hlex]
    rfl
  rw [hread, Reader.run_eq_ok_iff, Reader.completes_start_iff, htokens]
  constructor
  · rintro ⟨d, hd, rfl⟩
    cases d with
    | path head keys =>
      obtain ⟨hhead, hkeys⟩ := List.cons.inj hd
      exact ⟨keys, hkeys, by rw [Derivation.formula, Token.name.inj hhead]⟩
    | call name args =>
      exact absurd (List.cons.inj hd).2.symm (Step.lexed_ne_opening r.tail _)
    | number x => cases hd
    | text s => cases hd
  · rintro ⟨keys, hkeys, rfl⟩
    exact ⟨.path r.head keys, by rw [Derivation.tokens, hkeys], rfl⟩

theorem read_text_eq_path_iff :
    Formula.read r.text = .ok (.path r.segments) ↔ r.Readable := by
  have hkeys : r.Readable ↔ r.tail.IsChain Step.Apart ∧ ∀ n, .place n ∈ r.tail → Kept n :=
    ⟨fun h => ⟨h.apart, h.kept⟩, fun h => ⟨h.1, h.2⟩⟩
  rw [read_text_iff, hkeys, ← Step.exists_keys_iff]
  refine exists_congr fun keys => and_congr_right fun _ => ?_
  rw [Formula.path.injEq, segments, steps, List.map_cons, Step.shown, List.cons.injEq]
  exact ⟨fun h => h.2.symm, fun h => ⟨rfl, h.symm⟩⟩

/-! ### what a text finds -/

/-- the characters of routes are dots and those of names -/
theorem bounds_of_mem_text {r : Route} {c : Char} (h : c ∈ r.text.toList) :
    46 ≤ c.toNat ∧ c.toNat ≤ 122 := by
  have hsegment : ∀ {s : Step}, c ∈ s.shown.toList → 46 ≤ c.toNat ∧ c.toNat ≤ 122 := by
    intro s hc
    have hbounds := Lexeme.continuesName_bounds (List.all_eq_true.mp s.all_continuesName c hc)
    omega
  rw [toList_text, List.mem_append, spelled, List.mem_flatMap] at h
  rcases h with h | ⟨s, -, h⟩
  · exact hsegment (s := .key r.head r.named) h
  · rcases List.mem_cons.mp h with rfl | h
    · decide
    · exact hsegment h

theorem trim_text (r : Route) : Text.trim r.text = r.text := by
  refine Text.trim_of_not_isBlank fun c hc => ?_
  have hbounds := bounds_of_mem_text hc
  simp only [isBlank, Bool.or_eq_false_iff, Bool.and_eq_false_iff, decide_eq_false_iff_not,
    beq_eq_false_iff_ne]
  omega

theorem text_ne_empty (r : Route) : r.text ≠ "" := by
  intro h
  have hnil : r.head.toList ++ spelled r.tail = [] := by rw [← toList_text, h]; rfl
  obtain ⟨c, cs, hhead, -⟩ := Lexeme.exists_cons_of_isName r.named
  rw [hhead] at hnil
  cases hnil

/-- the text of a route in double braces is resolved as the formula that it is read as -/
theorem resolve_text (r : Route) (scope : Scope) :
    scope.resolve (.text (Formula.braced r.text))
      = (Formula.read r.text >>= Formula.eval scope.values).mapError (Unresolved.mk r.text) := by
  rw [Scope.resolve_braced r.text_ne_empty, Scope.evaluate, trim_text]

theorem listPlace?_name {s : String} (h : Lexeme.isName s = true) :
    Formula.listPlace? s = none := by
  obtain ⟨c, cs, hs, hc, -⟩ := Lexeme.exists_cons_of_isName h
  rw [Formula.listPlace?, hs]
  exact if_neg (by simp [Lexeme.not_isDigit_of_startsName hc])

theorem listPlace?_repr (n : ℕ) : Formula.listPlace? (Nat.repr n) = some n := by
  have hall : (!(Nat.repr n).toList.isEmpty && (Nat.repr n).toList.all Char.isDigit) = true := by
    rw [repr_digits]
    simp
  rw [Formula.listPlace?]
  simp only [hall, if_true, digitsValue_repr]

theorem descend_shown (v : Json) (s : Step) : Formula.descend v s.shown = s.follow v := by
  cases s with
  | key name named =>
    cases v with
    | list items =>
      show (Formula.listPlace? name >>= fun i => items[i]?) = none
      rw [listPlace?_name named]
      rfl
    | null | boolean | integer | real | text | object => rfl
  | place n =>
    cases v with
    | list items =>
      show (Formula.listPlace? (Nat.repr n) >>= fun i => items[i]?) = items[n]?
      rw [listPlace?_repr]
      rfl
    | null | boolean | integer | real | text | object => rfl

theorem foldlM_segments (r : Route) (v : Json) :
    r.segments.foldlM Formula.descend v = r.follow v := by
  rw [segments, List.foldlM_map, follow]
  congr 1
  funext v s
  exact descend_shown v s

/-- what the text of a route is to be resolved to: what stands at its end, or an error that names
it -/
def found (r : Route) (scope : Scope) : Except Unresolved Json :=
  match r.follow scope.values with
  | some v => .ok v
  | none => .error ⟨r.text, .unresolved r.text⟩

theorem mapError_lookup (r : Route) (scope : Scope) :
    (Formula.lookup scope.values r.segments).mapError (Unresolved.mk r.text) = r.found scope := by
  rw [Formula.lookup, foldlM_segments, found]
  cases r.follow scope.values <;> rfl

/-- a chain of objects with one key each -/
def nest : List String → Json
  | [] => .null
  | s :: rest => .object [(s, nest rest)]

/-- only the segments themselves lead to the end of the chain -/
theorem foldlM_nest_iff (segments segments' : List String) :
    segments'.foldlM Formula.descend (nest segments) = some .null ↔ segments' = segments := by
  induction segments generalizing segments' with
  | nil =>
    cases segments' with
    | nil => exact iff_of_true rfl rfl
    | cons s rest => exact iff_of_false nofun nofun
  | cons t segments ih =>
    cases segments' with
    | nil => exact iff_of_false nofun nofun
    | cons s rest =>
      rw [List.foldlM_cons, nest, Formula.descend, List.lookup_cons]
      by_cases hs : s = t
      · subst hs
        simp only [beq_self_eq_true]
        exact (ih rest).trans (by simp)
      · rw [beq_eq_false_iff_ne.mpr hs]
        exact iff_of_false nofun fun h => hs (List.cons.inj h).1

/-- if the text of a route finds the end of its own chain of objects, it is read as the route -/
theorem readable_of_found (r : Route)
    (h : ∀ scope : Scope, scope.resolve (.text (Formula.braced r.text)) = r.found scope) :
    r.Readable := by
  have hend : r.found ⟨nest r.segments⟩ = .ok .null := by
    rw [found, ← foldlM_segments, (foldlM_nest_iff _ _).mpr rfl]
  have hresolve := (h ⟨nest r.segments⟩).trans hend
  rw [resolve_text] at hresolve
  obtain ⟨f, hread, heval⟩ := ok_of_bind (ok_of_mapError hresolve)
  obtain ⟨keys, -, rfl⟩ := (read_text_iff f).mp hread
  rw [Formula.eval, Formula.lookup] at heval
  have hfound : (r.head :: keys.map PathKey.shown).foldlM Formula.descend (nest r.segments)
      = some .null := by
    split at heval
    · rename_i v hv
      rw [hv, Except.ok.inj heval]
    · cases heval
  rw [(foldlM_nest_iff _ _).mp hfound] at hread
  exact read_text_eq_path_iff.mp hread

/-- The text of a route is read as a path with the segments of the route, and in all scopes it finds
what stands at the end of the route, if and only if no two places stand in a row and every place has
at most 53 significant bits, or is the largest number of 64 bits. Two places in a row come out as
one number with digits behind its point. -/
theorem text_exact (r : Route) :
    (Formula.read r.text = .ok (.path r.segments) ↔ r.Readable) ∧
    ((∀ scope : Scope, scope.resolve (.text (Formula.braced r.text)) = r.found scope) ↔
      r.Readable) := by
  refine ⟨read_text_eq_path_iff, readable_of_found r, fun h scope => ?_⟩
  rw [resolve_text, read_text_eq_path_iff.mpr h, ← mapError_lookup]
  rfl

def rows : Json :=
  .object [("m", .list [.list [.integer 1, .integer 2], .list [.integer 3, .integer 4]])]

/-- a place in a place of the list -/
def cell : Route := ⟨"m", by decide, [.place 1, .place 0]⟩

/-- the whole second list is found in the place of its first item -/
theorem text_of_cell_finds_row :
    cell.text = "m.1.0" ∧ Formula.read cell.text = .ok (.path ["m", "1"]) ∧
      cell.found ⟨rows⟩ = .ok (.integer 3) ∧
      Scope.resolve ⟨rows⟩ (.text (Formula.braced cell.text))
        = .ok (.list [.integer 3, .integer 4]) := by
  have hone : IsCount (Step.merged 1 0) 1 := by
    refine ⟨⟨false, hiddenBit, -52⟩, by decide, ?_⟩
    norm_num [Binary.value, hiddenBit]
  have hread : Formula.read cell.text = .ok (.path ["m", "1"]) :=
    (read_text_iff _).mpr ⟨[.place (Step.merged 1 0) 1 hone], rfl, rfl⟩
  refine ⟨by decide, hread, rfl, ?_⟩
  rw [resolve_text, hread]
  rfl

end Route

end Figures
