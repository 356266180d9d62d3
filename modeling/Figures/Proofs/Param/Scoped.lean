import Figures.Proofs.Dict
import Figures.Proofs.Formula.Route
import Figures.Proofs.Param.Codec

/-!
# Parameters as formulas see them

* `Params.formulas`              the scope of the formulas over some parameters
* `Route.resolve_of_readable`    the text of a readable route is resolved to what stands at its end
* `Params.resolve_named`         a chapter, a point and a name: the entry of that name
* `Flag.told_of_decoder`         no boolean is kept as a malformed flag
* `Params.formulas_read`         formulas read the numbers, labels, points and flags that figures
                                 read
-/

namespace Figures

/-- a member of the object of a dictionary is an entry -/
theorem Json.member?_ofDict {α : Type} (f : α → Json) (d : Dict α) (k : String) :
    (ofDict f d).member? k = (d.get? k).map f := by
  show (d.entries.map fun e => (e.1, f e.2)).lookup k = (d.entries.lookup k).map f
  induction d.entries with
  | nil => rfl
  | cons e entries ih =>
    rw [List.map_cons, List.lookup_cons, List.lookup_cons, ih]
    cases k == e.1 <;> rfl

theorem Json.number_text (context s : String) : (Json.text s).number context
    = (Setting.text s).number?.elim (.error (.mistyped context s!"\"{s}\" is not a number"))
      .ok := by
  rw [Json.number, Setting.number?]
  cases (readNumber? (Text.trim s)).filter Float.isFinite <;> rfl

theorem Scope.number_of_resolve {scope : Scope} {v w : Json} (h : scope.resolve v = .ok w) :
    scope.number v = (w.number "value").mapError (Unresolved.mk v.described) := by
  rw [Scope.number, h]
  rfl

namespace Route

variable {r : Route}

/-- the text of a readable route in double braces is resolved to what stands at the end of the
route -/
theorem resolve_of_readable (h : r.Readable) (scope : Scope) :
    scope.resolve (.text (Formula.braced r.text)) = r.found scope := by
  rw [resolve_text, read_text_eq_path_iff.mpr h, ← mapError_lookup]
  rfl

def entry (head name : String) (hhead : Lexeme.isName head = true)
    (hname : Lexeme.isName name = true) : Route :=
  ⟨head, hhead, [.key name hname]⟩

variable {head name : String} (hhead : Lexeme.isName head = true)
    (hname : Lexeme.isName name = true)

theorem text_entry : (entry head name hhead hname).text = head ++ "." ++ name := by
  show Text.join "." [head, name] = _
  rw [Text.join, String.intercalate_cons_cons, String.intercalate_singleton]

theorem readable_entry : (entry head name hhead hname).Readable where
  apart := List.isChain_singleton _
  kept n hn := absurd hn (by simp [entry])

end Route

namespace Flag

/-- a flag that is kept as malformed is no boolean -/
def Told (flag : Flag) : Prop := ∀ b, flag ≠ .malformed (.boolean b)

theorem told_of_decoder : Decoder.Reads Told decoder := by
  intro origin doc flag h b
  unfold decoder at h
  split at h
  · cases h
    exact nofun
  · rename_i hboolean
    obtain ⟨v, hv, rfl⟩ := ok_of_map h
    intro heq
    obtain rfl := Flag.malformed.inj heq
    exact hboolean b (Document.ofJson_of_toJson (ok_of_mapError hv) nofun nofun).symm

end Flag

namespace Params

variable {p : Params} {name : String}

/-- the flags of parameters that are read are told from booleans -/
theorem told_of_decoder : Decoder.Reads (fun p => ∀ e ∈ p.visibility.entries, e.2.Told)
    decoder := by
  refine Decoder.reads_of_from (Decoder.readsFrom_record (I := fun p =>
    ∀ e ∈ p.visibility.entries, e.2.Told)
    Document.hereditary_true (fun _ he => absurd he List.not_mem_nil) ?_ fun _ p q hp h =>
      Except.ok.inj h ▸ hp)
  simp only [List.forall_mem_cons, List.not_mem_nil, false_imp_iff, implies_true, and_true]
  refine ⟨?labels, ?values, ?visibility, ?positions⟩
  case visibility =>
    exact Decoder.Slot.keepsFrom_of (Flag.told_of_decoder.from.dict Document.hereditary_true)
      fun _ _ hv _ => hv
  all_goals exact Decoder.Slot.keepsFrom_of (Decoder.reads_true _).from fun _ _ _ hp => hp

def formulas (p : Params) : Scope := ⟨p.scope⟩

/-- a chapter and a name with a point between them, as a formula in double braces -/
abbrev named (chapter name : String) : Json := .text (Formula.braced (chapter ++ "." ++ name))

theorem resolve_named {α : Type} (chapter : String) {d : Dict α} {f : α → Json}
    (hnamed : Lexeme.isName chapter = true) (hname : Lexeme.isName name = true)
    (hchapter : p.scope.member? chapter = some (.ofDict f d)) :
    p.formulas.resolve (named chapter name)
      = ((d.get? name).map f).elim (.error ⟨chapter ++ "." ++ name,
        .unresolved (chapter ++ "." ++ name)⟩) .ok := by
  have hsteps : (Route.entry chapter name hnamed hname).steps =
      [.key chapter hnamed, .key name hname] := rfl
  have hfollow : (Route.entry chapter name hnamed hname).follow p.scope = (d.get? name).map f := by
    rw [Route.follow, hsteps, List.foldlM_cons, Step.follow, hchapter, ← Json.member?_ofDict f]
    exact bind_pure ((Json.ofDict f d).member? name)
  rw [named, ← Route.text_entry hnamed hname, Route.resolve_of_readable
    (Route.readable_entry hnamed hname), Route.found, formulas, hfollow]
  cases d.get? name <;> rfl

section
variable (hname : Lexeme.isName name = true)
include hname

theorem number_values_iff (hfinite : ∀ x, p.number? name = some x → x.isFinite = true) (n : Float) :
    p.formulas.number (named "values" name) = .ok n ↔ p.number? name = some n := by
  have hok : ∀ {u v : Float}, (.ok u : Except Unresolved Float) = .ok v ↔ some u = some v := by simp
  have hresolve := resolve_named "values" (p := p) (by decide) hname rfl
  rw [number?] at hfinite ⊢
  cases hvalue : p.values.get? name with
  | none =>
    rw [hvalue] at hresolve
    rw [Scope.number, hresolve]
    exact iff_of_false nofun nofun
  | some v =>
    rw [hvalue] at hresolve hfinite
    rw [Option.bind_eq_bind, Option.bind_some] at hfinite ⊢
    rw [Scope.number_of_resolve hresolve]
    cases v with
    | number x =>
      have hjson : (Setting.number x).toJson = .real x := Json.ofReal_of_isFinite (hfinite x rfl)
      rw [hjson]
      exact hok
    | text s =>
      have hjson : (Setting.text s).toJson = .text s := rfl
      rw [hjson, Json.number_text]
      cases (Setting.text s).number? with
      | none => simp [Except.mapError]
      | some x => exact hok

theorem text_labels {s : String} (h : p.labels.get? name = some s) :
    p.formulas.text (named "labels" name) = .ok s := by
  rw [Scope.text, resolve_named "labels" (by decide) hname rfl, h]
  rfl

theorem point_positions {q : Point} (h : p.point? name = some q) :
    p.formulas.point (named "positions" name) = .ok q := by
  obtain ⟨position, hposition, hpoint⟩ := Option.bind_eq_some_iff.mp h
  cases position with
  | malformed v => cases hpoint
  | known r =>
    rw [Position.point?] at hpoint
    split at hpoint
    · rename_i hfinite
      obtain rfl := Option.some.inj hpoint
      obtain ⟨hx, hy⟩ := Bool.and_eq_true_iff.mp hfinite
      have hjson : (Position.known r).toJson = .object [("x", .real r.x), ("y", .real r.y)] := by
        rw [← Json.ofReal_of_isFinite hx, ← Json.ofReal_of_isFinite hy]
        rfl
      rw [Scope.point, resolve_named "positions" (by decide) hname rfl, hposition,
        Option.map_some, hjson]
      rfl
    · cases hpoint

theorem resolve_visibility_iff (b : Bool) : p.formulas.resolve (named "visibility" name) = .ok
    (.boolean b) ↔
    p.visibility.get? name = some (.known b) ∨ p.visibility.get? name =
    some (.malformed (.boolean b)) := by
  rw [resolve_named "visibility" (by decide) hname rfl]
  cases p.visibility.get? name with
  | none => simp
  | some flag => cases flag <;> simp [Flag.toJson]

end

/-- **Formulas read the parameters that figures read.** Let all numbers be finite, and let `k` be a
name. The formula `values.k` in double braces is the number `n` if and only if the number of `k` is
`n`; the formula `labels.k` is the label of `k` as it is, whatever that looks like; `positions.k` is
the point of `k`; and `visibility.k` is the boolean `b` if and only if the flag of `k` is `b`. This
last holds of all parameters that come from a document: of others, a boolean might have been put in
as a malformed flag. -/
theorem formulas_read (p : Params) (hfinite : ∀ name x, p.number? name = some x → x.isFinite = true)
    (k : String) (hk : Lexeme.isName k = true) :
    (∀ n, p.formulas.number (named "values" k) = .ok n ↔ p.number? k = some n) ∧
      (∀ s, p.labels.get? k = some s → p.formulas.text (named "labels" k) = .ok s) ∧
      (∀ q, p.point? k = some q → p.formulas.point (named "positions" k) = .ok q) ∧
      (∀ b, p.formulas.resolve (named "visibility" k) = .ok (.boolean b) ↔
        p.visibility.get? k = some (.known b) ∨
          p.visibility.get? k = some (.malformed (.boolean b))) ∧
      ∀ origin doc, decoder origin doc = .ok p → ∀ b,
        p.formulas.resolve (named "visibility" k) = .ok (.boolean b) ↔
        p.visibility.get? k = some (.known b) := by
  refine ⟨number_values_iff hk (hfinite k), fun s => text_labels hk, fun q => point_positions hk,
    resolve_visibility_iff hk, fun origin doc hread b => ?_⟩
  rw [resolve_visibility_iff hk]
  refine or_iff_left fun hflag => ?_
  exact told_of_decoder origin doc p hread _ (Dict.mem_of_get? hflag) b rfl

/-- a name with a number in blanks, a label that looks like a formula, a point and a flag -/
def spokenFor : Params where
  labels := .ofList [("k", Formula.braced "values.k")]
  values := .ofList [("k", .text " 2.5 ")]
  visibility := .ofList [("k", .known true)]
  positions := .ofList [("k", .known ⟨1.0, 2.0⟩)]

theorem formulas_read_spokenFor : spokenFor.formulas.number (named "values" "k") = .ok 2.5 ∧
    spokenFor.formulas.text (named "labels" "k") = .ok (Formula.braced "values.k") ∧
    spokenFor.formulas.point (named "positions" "k") = .ok ⟨1.0, 2.0⟩ ∧
    spokenFor.formulas.resolve (named "visibility" "k") = .ok (.boolean true) := by
  have hfinite : ∀ name x, spokenFor.number? name = some x → x.isFinite = true := by
    intro name x h
    obtain ⟨v, hv, hx⟩ := Option.bind_eq_some_iff.mp h
    cases List.mem_singleton.mp (Dict.mem_of_get? hv : (name, v) ∈ [("k", Setting.text " 2.5 ")])
    have hread : (readNumber? (Text.trim " 2.5 ")).filter Float.isFinite = some x := hx
    exact (Option.filter_eq_some_iff.mp hread).2
  obtain ⟨hnumber, htext, hpoint, hflag, -⟩ := formulas_read spokenFor hfinite "k" (by decide)
  have hread : spokenFor.number? "k" = some 2.5 := by decide
  exact ⟨(hnumber _).mpr hread, htext _ rfl, hpoint _ rfl, (hflag true).mpr (.inl rfl)⟩

end Params

end Figures
