import Figures.Param.Basic
import Figures.Proofs.Blueprint.Canvas
import Figures.Proofs.Blueprint.Tainted
import Figures.Proofs.Blueprint.Notes

/-!
# Blueprints without issues and their warnings

* `Blueprint.Warns`             a warning about a value, with its cause
* `Blueprint.Silent`            no cause is a syntax error
* `Scope.noted`                 a shape whose texts are formulas without tainted values notes none
* `Blueprint.Braced`            a text in double braces of a blueprint
* `Blueprint.silent_of_quiet`   a blueprint without issues is silent if no formula of its has a
                                tainted value
* `Blueprint.silent_of_clean`   all of them are, where every text in double braces is a formula
* `Blueprint.probe`             a blueprint that shows what is wrong with the value of a formula
* `Blueprint.silent_iff`        the blueprints without issues and with formulas of some kind are
                                silent if and only if no formula of that kind has a tainted value

The texts that a shape finds in the value of a formula are no part of the blueprint and are not
checked.
-/

namespace Figures

/-! ### warnings and their causes -/

/-- a warning of a blueprint about a value, with its cause -/
inductive Blueprint.Warns (b : Blueprint) (scope : Scope) (pen : Pen) : String → FormulaError → Prop
  | intro {layer : Layer} {name : String} {item : Shape} {field : String} {u : Unresolved}
      (hlayer : layer ∈ b.layers) (hitem : (name, item) ∈ layer.named)
      (hnote : .unresolved field u ∈ item.notes scope pen name) :
      b.Warns scope pen ((Note.unresolved field u).message name) u.error

/-- no warning is due to a syntax error -/
def Blueprint.Silent (b : Blueprint) (scope : Scope) (pen : Pen) : Prop :=
  ∀ warning cause, b.Warns scope pen warning cause → ¬ cause.Syntactic

theorem Layer.mem_warnings_iff (layer : Layer) (scope : Scope) (pen : Pen) (warning : String) :
    warning ∈ layer.warnings scope pen ↔
      ∃ name item, (name, item) ∈ layer.named ∧ warning ∈ (item.render scope pen name).2 := by
  rw [Layer.warnings_eq, List.mem_flatMap]
  exact ⟨fun ⟨e, he, h⟩ => ⟨e.1, e.2, he, h⟩, fun ⟨name, item, he, h⟩ => ⟨(name, item), he, h⟩⟩

theorem Shape.mem_warnings_iff (item : Shape) (scope : Scope) (pen : Pen) (name warning : String) :
    warning ∈ (item.render scope pen name).2 ↔
      (∃ note ∈ item.notes scope pen name, note.message name = warning) ∨
        ∃ e, item.outcome scope pen name = .error e ∧ warning = skipMessage name item.kind e := by
  rw [render_eq]
  cases item.outcome scope pen name <;> simp

/-- the warnings of a blueprint are about values, about styles that are not written, and about
shapes that are skipped -/
theorem Blueprint.mem_warnings_iff (b : Blueprint) (scope : Scope) (pen : Pen) (warning : String) :
    warning ∈ (b.scene scope pen).warnings ↔ (∃ cause, b.Warns scope pen warning cause) ∨
      ∃ layer ∈ b.layers, ∃ name item, (name, item) ∈ layer.named ∧
        ((∃ key reason, .dropped key reason ∈ item.notes scope pen name ∧
            warning = (Note.dropped key reason).message name) ∨
          ∃ e, item.outcome scope pen name = .error e ∧
            warning = Shape.skipMessage name item.kind e) := by
  have hscene : warning ∈ (b.scene scope pen).warnings ↔
      ∃ layer ∈ b.layers, ∃ name item, (name, item) ∈ layer.named ∧
        warning ∈ (item.render scope pen name).2 := by
    rw [scene, List.mem_flatMap]
    simp only [ordered, List.mem_mergeSort, Layer.mem_warnings_iff]
  rw [hscene]
  constructor
  · rintro ⟨layer, hl, name, item, hitem, hw⟩
    rcases (item.mem_warnings_iff scope pen name warning).mp hw with ⟨note, hnote,
      rfl⟩ | ⟨e, he, rfl⟩
    · cases note with
      | unresolved field u => exact .inl ⟨u.error, .intro hl hitem hnote⟩
      | dropped key reason =>
        exact .inr ⟨layer, hl, name, item, hitem, .inl ⟨key, reason, hnote, rfl⟩⟩
    · exact .inr ⟨layer, hl, name, item, hitem, .inr ⟨e, he, rfl⟩⟩
  · rintro (⟨cause, hl, hitem, hnote⟩ | ⟨layer, hl, name, item, hitem, h⟩)
    · exact ⟨_, hl, _, _, hitem, (Shape.mem_warnings_iff _ _ _ _ _).mpr (.inl ⟨_, hnote, rfl⟩)⟩
    · refine ⟨layer, hl, name, item, hitem, (item.mem_warnings_iff scope pen name warning).mpr ?_⟩
      rcases h with ⟨key, reason, hnote, rfl⟩ | ⟨e, he, rfl⟩
      · exact .inl ⟨_, hnote, rfl⟩
      · exact .inr ⟨e, he, rfl⟩

/-! ### from the scope to the warnings -/

/-- a note on a text that is no formula -/
inductive Note.Syntactic : Note → Prop
  | intro {field : String} {u : Unresolved} (h : u.error.Syntactic) :
    Syntactic (.unresolved field u)

theorem Note.not_syntactic {field : String} {u : Unresolved} {α : Type} {x : Except Unresolved α}
    (h : ¬ Refuses x) (hu : x = .error u) : ¬ (Note.unresolved field u).Syntactic := by
  rintro ⟨hsyntactic⟩
  exact h ⟨u, hu, hsyntactic⟩

theorem Scope.exists_of_mem_style (scope : Scope) {v : Json} {u : Unresolved}
    (h : u ∈ (scope.style v).2) :
    ∃ members, v = .object members ∧ ∃ m ∈ members, scope.text m.2 = .error u := by
  cases v with
  | object members =>
    obtain ⟨m, hm, hproblem⟩ := List.mem_filterMap.mp h
    refine ⟨members, rfl, m, hm, ?_⟩
    split at hproblem
    · cases hproblem
    · rename_i u' hu'
      exact Option.some.inj hproblem ▸ hu'
  | null | boolean | integer | real | text | list => exact absurd h List.not_mem_nil

/-- a shape whose texts in double braces are formulas without tainted values notes no syntax
error -/
theorem Scope.noted (scope : Scope) {name : String} {fields : Dict Json}
    (hclean : ∀ field v, fields.get? field = some v → v.Clean)
    (hquiet : ∀ field v, fields.get? field = some v → v.EveryBraced scope.Quiet) :
    Subject.Noted ⟨scope, name, fields⟩ fun note => ¬ note.Syntactic where
  resolve field v u hv hu := by
    refine Note.not_syntactic (fun hrefuses => ?_) hu
    exact (hclean field v hv).not_malformed ((scope.refuses_resolve_iff v).mp hrefuses)
  number field v u hv hu := by
    refine Note.not_syntactic (fun hrefuses => ?_) hu
    exact (hclean field v hv).not_malformed ((scope.refuses_number_iff v).mp hrefuses)
  point field v u hv hu :=
    Note.not_syntactic (not_refuses_point (hclean field v hv) (hquiet field v hv)) hu
  items field v items hv hresolve item hitem u hu :=
    Note.not_syntactic (not_refuses_item (hclean field v hv) (hquiet field v hv) hresolve hitem) hu
  style u hu := by
    cases hv : fields.get? "style" with
    | none =>
      rw [show ((⟨scope, name, fields⟩ : Subject).fields.get? "style") = none from hv] at hu
      exact absurd hu List.not_mem_nil
    | some v =>
      rw [show ((⟨scope, name, fields⟩ : Subject).fields.get? "style") = some v from hv] at hu
      obtain ⟨members, rfl, m, hm, herror⟩ := scope.exists_of_mem_style hu
      have hmember : m.2.Clean := (hclean "style" _ hv).member hm
      refine Note.not_syntactic (fun hrefuses => ?_) (error_of_map herror)
      exact hmember.not_malformed ((scope.refuses_resolve_iff m.2).mp hrefuses)
  dropped key reason := nofun

namespace Blueprint

variable {b : Blueprint} {scope : Scope} (pen : Pen)

/-- a text in double braces among the texts of a blueprint -/
def Braced (b : Blueprint) (source : String) : Prop :=
  ∃ place text, b.At place text ∧ Formula.body? text = some source

theorem read_of_issues (h : b.issues = []) {source : String} (hbraced : b.Braced source) :
    ∃ f, Formula.read source = .ok f := by
  obtain ⟨place, text, hat, hbody⟩ := hbraced
  cases hread : Formula.read source with
  | ok f => exact ⟨f, rfl⟩
  | error e =>
    have hissue : (⟨place, source, e⟩ : Issue) ∈ b.issues :=
      (b.mem_issues_iff _).mpr ⟨text, hat, hbody, hread⟩
    rw [h] at hissue
    exact absurd hissue List.not_mem_nil

/-- what holds of the texts in double braces of a blueprint holds of those in its fields -/
theorem everyBraced_field {P : String → Prop} (h : ∀ source, b.Braced source → P source)
    {layer : Layer} (hlayer : layer ∈ b.layers) {name : String} {item : Shape}
    (hitem : (name, item) ∈ layer.named) (field : String) (v : Json)
    (hv : item.fields.get? field = some v) : v.EveryBraced P :=
  fun _ t source hat hbody =>
    h source ⟨_, t, .intro hlayer hitem (Dict.mem_of_get? hv) hat, hbody⟩

/-- a blueprint without issues is silent if no formula of its has a tainted value -/
theorem silent_of_quiet (hissues : b.issues = []) (h : ∀ source, b.Braced source →
    scope.Quiet source) :
    b.Silent scope pen := by
  rintro warning cause ⟨hlayer, hitem, hnote⟩ hsyntactic
  rename_i layer name item field u
  have hclean : ∀ field v, item.fields.get? field = some v → v.Clean :=
    everyBraced_field (fun _ hbraced => read_of_issues hissues hbraced) hlayer hitem
  have hquiet : ∀ field v, item.fields.get? field = some v → v.EveryBraced scope.Quiet :=
    everyBraced_field h hlayer hitem
  unfold Shape.notes Shape.reading at hnote
  split at hnote
  · rename_i kind hkind
    have hnoted : Subject.Noted ⟨scope, name, item.fields⟩ fun note => ¬ note.Syntactic :=
      scope.noted hclean hquiet
    obtain ⟨more, hnotes, hmore⟩ := hnoted.adds_draw pen kind []
    rw [hnotes] at hnote
    exact hmore _ hnote ⟨hsyntactic⟩
  · exact absurd hnote List.not_mem_nil

/-- in a scope whose texts in double braces are formulas, every blueprint without issues is
silent -/
theorem silent_of_clean (hissues : b.issues = []) (h : scope.values.Clean) : b.Silent scope pen :=
  silent_of_quiet pen hissues fun source _ => Scope.quiet_of_clean h source

/-! ### probes -/

def probe (kind field source : String) : Blueprint :=
  ⟨1, ⟨100, 100⟩, [⟨"l", 0, [⟨"a", kind, Dict.ofList [(field, .text (Formula.braced source))]⟩]⟩]⟩

theorem leaves_probe (kind field source : String) : (probe kind field source).leaves
    = [("l/a" ++ "." ++ field, Formula.braced source)] := rfl

theorem issues_probe (kind field : String) {source : String} {f : Formula}
    (hne : source ≠ "") (h : Formula.read source = .ok f) :
      (probe kind field source).issues = [] := by
  rw [issues, leaves_probe, List.flatMap_singleton, Issue.ofLeaf, Formula.body?_braced hne]
  dsimp only
  rw [h]

theorem eq_of_braced_probe {kind field source source' : String} (hne : source ≠ "")
    (h : (probe kind field source).Braced source') : source' = source := by
  obtain ⟨place, text, hat, hbody⟩ := h
  rw [← mem_leaves_iff, leaves_probe, List.mem_singleton] at hat
  rw [(Prod.mk.inj hat).2, Formula.body?_braced hne] at hbody
  exact (Option.some.inj hbody).symm

theorem mem_notes_line {s : Subject} {v : Json} (hv : s.fields.get? "from" = some v)
    {u : Unresolved} (hu : s.scope.point v = .error u) :
    .unresolved "from" u ∈ ((s.drawLine pen).run.run []).2 := by
  have hpoint : .unresolved "from" u ∈ ((s.point "from").run.run []).2 := by
    rw [Subject.point, Subject.given, hv]
    show _ ∈ ((Subject.settle "from" Point.origin (s.scope.point v)).run.run []).2
    rw [hu]
    exact List.mem_cons_self
  exact Adds.mem_bind hpoint fun _ => (s.noted_true.adds_point "to").bind fun _ =>
    s.noted_true.adds_looks

theorem not_silent_line {source : String}
    (h : Refuses (scope.point (.text (Formula.braced source)))) :
    ¬ (probe "line" "from" source).Silent scope pen := by
  obtain ⟨u, hu, hsyntactic⟩ := h
  let s : Subject := ⟨scope, "a", Dict.ofList [("from", .text (Formula.braced source))]⟩
  have hnote : .unresolved "from" u ∈ ((s.drawLine pen).run.run []).2 := mem_notes_line pen rfl hu
  exact fun hsilent =>
    hsilent _ _ (.intro List.mem_cons_self List.mem_cons_self hnote) hsyntactic

/-- the problem with one of several points is noted with the others -/
theorem mem_notes_items {field : String} {items : List Json} {item : Json} (hitem : item ∈ items)
    {u : Unresolved} (hu : scope.point item = .error u) (notes : List Note) :
    .unresolved field u ∈ ((items.mapM fun item =>
      Subject.settle field Point.origin (scope.point item)).run.run notes).2 := by
  have hadds : ∀ items : List Json, Adds (fun _ => True)
      (items.mapM fun item => Subject.settle field Point.origin (scope.point item)) := fun items =>
    .mapM fun _ _ => Subject.adds_settle fun _ _ => trivial
  induction items generalizing notes with
  | nil => exact absurd hitem List.not_mem_nil
  | cons first rest ih =>
    rw [List.mapM_cons]
    rcases List.mem_cons.mp hitem with rfl | hitem
    · refine Adds.mem_bind ?_ fun _ => (hadds rest).bind fun _ => .pure _
      rw [hu]
      exact List.mem_append_right _ List.mem_cons_self
    · obtain ⟨p, mid, hrun⟩ := Subject.exists_run_settle field Point.origin (scope.point first)
        (fun p => (rest.mapM fun item => Subject.settle field Point.origin (scope.point item)) >>=
          fun ps => (pure (p :: ps) : Reading (List Point))) notes
      rw [hrun]
      exact Adds.mem_bind (ih hitem mid) fun _ => .pure (P := fun _ => True) _

theorem not_silent_polygon {source : String} {items : List Json} {item : Json}
    (hresolve : scope.resolve (.text (Formula.braced source)) = .ok (.list items))
    (hitem : item ∈ items) (h : Refuses (scope.point item)) :
    ¬ (probe "polygon" "points" source).Silent scope pen := by
  obtain ⟨u, hu, hsyntactic⟩ := h
  let s : Subject := ⟨scope, "a", Dict.ofList [("points", .text (Formula.braced source))]⟩
  have hpoints : .unresolved "points" u ∈ ((s.points "points").run.run []).2 := by
    rw [Subject.points_eq (s := s) rfl hresolve]
    exact mem_notes_items hitem hu []
  have hchain : .unresolved "points" u ∈ (s.chain.run.run []).2 :=
    Adds.mem_bind hpoints fun _ =>
      .ite ((Adds.throw (P := fun _ => True) _).bind fun _ => .pure _) (.pure _)
  have hnote : .unresolved "points" u ∈ ((s.drawPolygon pen).run.run []).2 :=
    Adds.mem_bind hchain fun _ => s.noted_true.adds_style.bind fun _ =>
      (s.noted_true.adds_cls _).bind fun _ => .pure _
  exact fun hsilent =>
    hsilent _ _ (.intro List.mem_cons_self List.mem_cons_self hnote) hsyntactic

/-- a tainted value of a formula is shown by a blueprint with no other text -/
theorem exists_probe {source : String} {v : Json} (hne : source ≠ "")
    (hv : scope.evaluate source = .ok v) (htainted : scope.Tainted v) :
    ∃ kind field, ¬ (probe kind field source).Silent scope pen := by
  have hresolve : scope.resolve (.text (Formula.braced source)) = .ok v :=
    (Scope.resolve_braced hne).trans hv
  cases v with
  | object members =>
    have hrefuses : Refuses (scope.point (.text (Formula.braced source))) :=
      (scope.refuses_point_iff _).mpr (.inr ⟨_, hresolve, htainted⟩)
    exact ⟨"line", "from", not_silent_line pen hrefuses⟩
  | list items =>
    obtain ⟨item, hitem, hfaulty⟩ := htainted
    have hrefuses : Refuses (scope.point item) := (scope.refuses_point_iff item).mpr hfaulty
    exact ⟨"polygon", "points", not_silent_polygon pen hresolve hitem hrefuses⟩
  | null | boolean | integer | real | text => exact htainted.elim

/-- The blueprints without issues whose formulas all satisfy `S` are drawn in a scope without any
warning that is due to a syntax error if and only if no formula that satisfies `S` has a value in
that scope which, taken as a point or as a list of points, comes upon a text in double braces that
is no formula. -/
theorem silent_iff (scope : Scope) (pen : Pen) (S : String → Prop) :
    (∀ b : Blueprint, b.issues = [] → (∀ source, b.Braced source → S source) → b.Silent scope pen) ↔
      ∀ source f, Formula.read source = .ok f → S source → scope.Quiet source := by
  constructor
  · intro h source f hread hsource v hv htainted
    have hne : source ≠ "" := Scope.ne_empty_of_evaluate hv
    obtain ⟨kind, field, hprobe⟩ := exists_probe pen hne hv htainted
    exact hprobe (h _ (issues_probe kind field hne hread) fun source' hbraced =>
      eq_of_braced_probe hne hbraced ▸ hsource)
  · intro h b hissues hS
    refine silent_of_quiet pen hissues fun source hbraced => ?_
    obtain ⟨f, hread⟩ := read_of_issues hissues hbraced
    exact h source f hread (hS source hbraced)

/-- parameters with a text in double braces that is no formula, and a line from the point that they
make -/
def unfinished : Params :=
  { values := Dict.ofList [("x", .text (Formula.braced "a +")), ("y", .number 2.0)] }

def fetching : Blueprint := ⟨1, ⟨100, 100⟩, [⟨"l", 0, [⟨"a", "line", Dict.ofList
  [("from", .text (Formula.braced "values")),
   ("to", .object [("x", .integer 3), ("y", .integer 4)])]⟩]⟩]⟩

/-- the blueprint has no issue, and yet a text is read as a formula and is none -/
theorem fetching_warns : fetching.issues = [] ∧
    fetching.Warns ⟨unfinished.scope⟩ (Pen.of {})
      ((Note.unresolved "from" ⟨"a +", Lexeme.stray 2 ['+']⟩).message "a")
      (Lexeme.stray 2 ['+']) := by
  have hvalues : Formula.read "values" = .ok (.path ["values"]) := by
    have hlex : Lexeme.lex "values" = .ok [⟨.name "values", ⟨0, 6⟩⟩] := by
      show Lexeme.lexFrom 0 ('v' :: ['a', 'l', 'u', 'e', 's']) = _
      rw [Lexeme.lexFrom_token (t := .name "values") (by decide) (by rfl)]
      show (Lexeme.lexFrom 6 []).map _ = _
      rw [Lexeme.lexFrom]
      rfl
    rw [Formula.read_eq_run, hlex]
    rfl
  have hsum : Formula.read "a +" = .error (Lexeme.stray 2 ['+']) := by
    rw [Formula.read_eq, Formula.readChars]
    show (Lexeme.lexFrom 0 ('a' :: [' ', '+'])) >>= _ = _
    rw [Lexeme.lexFrom_token (t := .name "a") (by decide) (by rfl)]
    show ((Lexeme.lexFrom 1 (' ' :: '+' :: [])).map _) >>= _ = _
    rw [Lexeme.lexFrom_gap (by decide), Lexeme.lexFrom_stray (by decide) (by rfl)]
    rfl
  let scope : Scope := ⟨unfinished.scope⟩
  have hfetch : scope.resolve (.text (Formula.braced "values")) = .ok
      (.object [("x", .text (Formula.braced "a +")), ("y", .ofReal 2.0)]) := by
    show scope.evaluate "values" = _
    rw [Scope.evaluate, show Text.trim "values" = "values" by decide, hvalues]
    rfl
  have hx : scope.number (.text (Formula.braced "a +")) = .error ⟨"a +", Lexeme.stray 2 ['+']⟩ := by
    show scope.evaluate "a +" >>= _ = _
    rw [Scope.evaluate, show Text.trim "a +" = "a +" by decide, hsum]
    rfl
  have hpoint : scope.point (.text (Formula.braced "values"))
      = .error ⟨"a +", Lexeme.stray 2 ['+']⟩ := by
    rw [Scope.point, hfetch]
    show scope.number (.text (Formula.braced "a +")) >>= _ = _
    rw [hx]
    rfl
  constructor
  · have hleaves : fetching.leaves = [("l/a" ++ "." ++ "from", Formula.braced "values")] := rfl
    rw [issues, hleaves, List.flatMap_singleton, Issue.ofLeaf]
    have hbody : Formula.body? (Formula.braced "values") = some "values" := rfl
    simp only [hbody, hvalues]
  · let s : Subject := ⟨scope, "a", (fetching.layers[0].items[0]).fields⟩
    have hnote : .unresolved "from" ⟨"a +", Lexeme.stray 2 ['+']⟩
        ∈ ((s.drawLine (Pen.of {})).run.run []).2 := mem_notes_line (Pen.of {}) rfl hpoint
    exact .intro List.mem_cons_self List.mem_cons_self hnote

end Blueprint

end Figures
