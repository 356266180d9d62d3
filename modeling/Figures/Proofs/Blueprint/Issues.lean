import Figures.Blueprint.Issue
import Figures.Proofs.Formula.Errors
import Figures.Proofs.Formula.Quoting

/-!
# Malformed formulas and the issues of a blueprint

* `Json.At`                       a text in a value, with the way down to it
* `Blueprint.At`                  a text in a field of a shape, at any depth, with its place
* `Blueprint.mem_leaves_iff`      every such text is visited
* `Blueprint.mem_issues_iff`      the issues are its texts in double braces that are no formulas
* `Blueprint.issues_exact`        when a text has an issue, compared with what its evaluation says

The check reads the text between the braces as it is, the evaluation reads it without the blanks
around it: they differ where blanks stand there.
-/

namespace Figures

/-! ### the texts of a value -/

/-- a text in a value, with the way down to it -/
inductive Json.At : Json → String → String → Prop
  | here (s : String) : At (.text s) "" s
  | item {items : List Json} {i : Nat} {v : Json} {way s : String} (hitem : items[i]? = some v)
      (h : At v way s) : At (.list items) (s!"[{i}]" ++ way) s
  | member {members : List (String × Json)} {key : String} {v : Json} {way s : String}
      (hmember : (key, v) ∈ members) (h : At v way s) : At (.object members) (s!".{key}" ++ way) s

/-- a text in a field of a shape, at any depth, with its place -/
inductive Blueprint.At (b : Blueprint) : String → String → Prop
  | intro {layer : Layer} {name : String} {item : Shape} {field : String} {v : Json}
    {way s : String} (hlayer : layer ∈ b.layers) (hitem : (name, item) ∈ layer.named)
      (hfield : (field, v) ∈ item.fields.entries) (h : v.At way s) :
      b.At (s!"{layer.id}/{name}.{field}" ++ way) s

namespace Json

mutual

theorem mem_leaves_iff (location : String) (v : Json) (place s : String) :
    (place, s) ∈ leaves location v ↔ ∃ way, v.At way s ∧ place = location ++ way := by
  cases v with
  | text t =>
    rw [leaves, List.mem_singleton]
    constructor
    · intro h
      obtain ⟨rfl, rfl⟩ := Prod.mk.inj h
      exact ⟨"", .here s, String.append_empty.symm⟩
    · rintro ⟨way, h, rfl⟩
      cases h
      rw [String.append_empty]
  | list items =>
    rw [leaves, mem_leavesOfItems_iff location 0 items place s]
    constructor
    · rintro ⟨j, v, way, hitem, h, rfl⟩
      rw [Nat.zero_add]
      exact ⟨_, .item hitem h, rfl⟩
    · rintro ⟨way, h, rfl⟩
      cases h with
      | @item _ j v way s hitem h => exact ⟨j, v, way, hitem, h, by rw [Nat.zero_add]⟩
  | object members =>
    rw [leaves, mem_leavesOfMembers_iff location members place s]
    constructor
    · rintro ⟨key, v, way, hmember, h, rfl⟩
      exact ⟨_, .member hmember h, rfl⟩
    · rintro ⟨way, h, rfl⟩
      cases h with
      | member hmember h => exact ⟨_, _, _, hmember, h, rfl⟩
  | null | boolean | integer | real =>
    refine iff_of_false List.not_mem_nil ?_
    rintro ⟨way, h, -⟩
    cases h

theorem mem_leavesOfItems_iff (location : String) (i : Nat) (items : List Json) (place s : String) :
    (place, s) ∈ leavesOfItems location i items ↔ ∃ j v way, items[j]? = some v ∧ v.At way s ∧
      place = location ++ (s!"[{i + j}]" ++ way) := by
  cases items with
  | nil =>
    refine iff_of_false List.not_mem_nil ?_
    rintro ⟨j, v, way, hitem, -⟩
    cases hitem
  | cons v rest =>
    have hplace : s!"{location}[{i}]" = location ++ s!"[{i}]" := by
      show location ++ "[" ++ toString i ++ "]" = location ++ ("[" ++ toString i ++ "]")
      rw [String.append_assoc, String.append_assoc, String.append_assoc]
    rw [leavesOfItems, List.mem_append, mem_leaves_iff _ v place s,
      mem_leavesOfItems_iff location (i + 1) rest place s, hplace]
    constructor
    · rintro (⟨way, h, rfl⟩ | ⟨j, w, way, hitem, h, rfl⟩)
      · exact ⟨0, v, way, rfl, h, String.append_assoc⟩
      · exact ⟨j + 1, w, way, hitem, h, by rw [Nat.add_right_comm i 1 j]; rfl⟩
    · rintro ⟨j, w, way, hitem, h, rfl⟩
      cases j with
      | zero =>
        cases hitem
        exact .inl ⟨way, h, String.append_assoc.symm⟩
      | succ j => exact .inr ⟨j, w, way, hitem, h, by rw [Nat.add_right_comm i 1 j]; rfl⟩

theorem mem_leavesOfMembers_iff (location : String) (members : List (String × Json))
    (place s : String) :
    (place, s) ∈ leavesOfMembers location members ↔ ∃ key v way, (key, v) ∈ members ∧ v.At way s ∧
      place = location ++ (s!".{key}" ++ way) := by
  cases members with
  | nil =>
    refine iff_of_false List.not_mem_nil ?_
    rintro ⟨key, v, way, hmember, -⟩
    exact List.not_mem_nil hmember
  | cons member rest =>
    obtain ⟨key, v⟩ := member
    have hplace : s!"{location}.{key}" = location ++ s!".{key}" := by
      show location ++ "." ++ key = location ++ ("." ++ key)
      rw [String.append_assoc]
    rw [leavesOfMembers, List.mem_append, mem_leaves_iff _ v place s,
      mem_leavesOfMembers_iff location rest place s, hplace]
    constructor
    · rintro (⟨way, h, rfl⟩ | ⟨key', w, way, hmember, h, rfl⟩)
      · exact ⟨key, v, way, List.mem_cons_self, h, String.append_assoc⟩
      · exact ⟨key', w, way, List.mem_cons_of_mem _ hmember, h, rfl⟩
    · rintro ⟨key', w, way, hmember, h, rfl⟩
      rcases List.mem_cons.mp hmember with heq | hmember
      · obtain ⟨rfl, rfl⟩ := Prod.mk.inj heq
        exact .inl ⟨way, h, String.append_assoc.symm⟩
      · exact .inr ⟨key', w, way, hmember, h, rfl⟩

end

end Json

/-! ### the issues of a blueprint -/

theorem Issue.mem_ofLeaf_iff (issue : Issue) (leaf : String × String) :
    issue ∈ Issue.ofLeaf leaf ↔ issue.location = leaf.1 ∧
      Formula.body? leaf.2 = some issue.source ∧ Formula.read issue.source =
      .error issue.error := by
  obtain ⟨location, source, error⟩ := issue
  unfold Issue.ofLeaf
  split
  · rename_i hnone
    simp [hnone]
  · rename_i body hbody
    rw [hbody]
    cases hread : Formula.read body with
    | ok f =>
      refine iff_of_false List.not_mem_nil ?_
      rintro ⟨-, hsource, herror⟩
      obtain rfl := Option.some.inj hsource
      rw [hread] at herror
      cases herror
    | error e =>
      simp only [List.mem_singleton, Issue.mk.injEq]
      constructor
      · rintro ⟨rfl, rfl, rfl⟩
        exact ⟨rfl, rfl, hread⟩
      · rintro ⟨rfl, hsource, herror⟩
        obtain rfl := Option.some.inj hsource
        exact ⟨rfl, rfl, Except.error.inj (herror.symm.trans hread)⟩

namespace Blueprint

variable (b : Blueprint)

/-- every text in a field of a shape is visited, at any depth -/
theorem mem_leaves_iff (place s : String) : (place, s) ∈ b.leaves ↔ b.At place s := by
  have hplace : ∀ (layer : Layer) (name field way : String),
      s!"{layer.id}/{name}.{field}" ++ way
        = (let location := s!"{layer.id}/{name}"
           s!"{location}.{field}") ++ way := fun _ _ _ _ => rfl
  simp only [leaves, Shape.leaves, List.mem_flatMap]
  constructor
  · rintro ⟨layer, hlayer, ⟨name, item⟩, hitem, ⟨field, v⟩, hfield, h⟩
    obtain ⟨way, hat, rfl⟩ := (Json.mem_leaves_iff _ v place s).mp h
    exact hplace layer name field way ▸ At.intro hlayer hitem hfield hat
  · rintro ⟨hlayer, hitem, hfield, hat⟩
    exact ⟨_, hlayer, _, hitem, _, hfield, (Json.mem_leaves_iff _ _ _ _).mpr ⟨_, hat, rfl⟩⟩

/-- the issues are the texts in double braces that are no formulas, with what is wrong with them -/
theorem mem_issues_iff (issue : Issue) :
    issue ∈ b.issues ↔ ∃ s, b.At issue.location s ∧ Formula.body? s = some issue.source ∧
      Formula.read issue.source = .error issue.error := by
  simp only [issues, List.mem_flatMap, Issue.mem_ofLeaf_iff]
  constructor
  · rintro ⟨⟨place, s⟩, hleaf, hplace, hbody, hread⟩
    exact ⟨s, (b.mem_leaves_iff _ _).mp (hplace ▸ hleaf), hbody, hread⟩
  · rintro ⟨s, hat, hbody, hread⟩
    exact ⟨(issue.location, s), (b.mem_leaves_iff _ _).mpr hat, rfl, hbody, hread⟩

theorem exists_issue_iff {place s source : String} (hat : b.At place s)
    (hbody : Formula.body? s = some source) :
    (∃ issue ∈ b.issues, issue.location = place ∧ issue.source = source) ↔
      ∃ e, Formula.read source = .error e := by
  constructor
  · rintro ⟨issue, hissue, -, rfl⟩
    obtain ⟨-, -, -, hread⟩ := (b.mem_issues_iff issue).mp hissue
    exact ⟨_, hread⟩
  · rintro ⟨e, hread⟩
    exact ⟨⟨place, source, e⟩, (b.mem_issues_iff _).mpr ⟨s, hat, hbody, hread⟩, rfl, rfl⟩

/-- The issues of a blueprint, and what the evaluation of the same texts says in any scope. A text
in double braces, at any depth of a field, has an issue if and only if its evaluation fails for a
syntax error or a blank around the formula is none that may stand between tokens. With nothing but
such gaps in front, the evaluation fails for the same error if and only if there are none, and the
place of the error does not reach into the blanks behind. -/
theorem issues_exact :
    (∀ issue : Issue, issue ∈ b.issues ↔ ∃ s, b.At issue.location s ∧
      Formula.body? s = some issue.source ∧ Formula.read issue.source = .error issue.error) ∧
    (∀ (place s source : String), b.At place s → Formula.body? s = some source → ∀ scope : Scope,
      ((∃ issue ∈ b.issues, issue.location = place ∧ issue.source = source) ↔
        (∃ e, e.Syntactic ∧ scope.evaluate source = .error ⟨source, e⟩) ∨
          ¬ Formula.Gapped source)) ∧
    ∀ issue ∈ b.issues, issue.error.Syntactic ∧ issue.error.span.start ≤ issue.error.span.stop ∧
      issue.error.span.stop ≤ issue.source.utf8ByteSize ∧
      ∀ scope : Scope, (∀ c ∈ Text.front issue.source, Lexeme.isGap c = true) →
        (scope.evaluate issue.source = .error ⟨issue.source, issue.error⟩ ↔
          Text.front issue.source = [] ∧
            issue.error.span.stop ≤ (Text.trim issue.source).utf8ByteSize) := by
  refine ⟨b.mem_issues_iff, fun place s source hat hbody scope => ?_, fun issue hissue => ?_⟩
  · rw [b.exists_issue_iff hat hbody, scope.evaluate_fails_iff, Formula.read_error_iff]
  · obtain ⟨s, -, -, hread⟩ := (b.mem_issues_iff issue).mp hissue
    have hchars := hread
    rw [Formula.read_eq] at hchars
    obtain ⟨hsyntactic, hspan, hstop⟩ := Formula.readChars_error hchars
    refine ⟨hsyntactic, hspan, Formula.utf8ByteSize_eq issue.source ▸ hstop, fun scope hfront => ?_⟩
    rw [scope.evaluate_eq_error_iff issue.source hsyntactic]
    exact Formula.read_trim_iff hread hfront

/-- two formulas with blanks in front: gaps before what is no formula, and a blank that is no gap
before a name -/
def indentedLine : Shape := ⟨"a", "line", Dict.ofList
  [("from", .text (Formula.braced "  a + b")), ("to", .text (Formula.braced "\u00a0a"))]⟩

def indented : Blueprint := ⟨1, ⟨100, 100⟩, [⟨"l", 0, [indentedLine]⟩]⟩

/-- the issue and the evaluation name different places of one text, and a formula with a value has
an issue -/
theorem indented_issues :
    (⟨"l/a.from", "  a + b", Lexeme.stray 4 ['+']⟩ : Issue) ∈ indented.issues ∧
    (∀ scope : Scope, scope.evaluate "  a + b" = .error ⟨"  a + b", Lexeme.stray 2 ['+']⟩) ∧
    (⟨"l/a.to", "\u00a0a", Lexeme.stray 0 ['\u00a0']⟩ : Issue) ∈ indented.issues ∧
    Scope.evaluate ⟨.object [("a", .integer 1)]⟩ "\u00a0a" = .ok (.integer 1) := by
  have hsum : ∀ start,
      Lexeme.lexFrom start "a + b".toList = .error (Lexeme.stray (start + 2) ['+']) := by
    intro start
    show Lexeme.lexFrom start ('a' :: ' ' :: '+' :: [' ', 'b']) = _
    rw [Lexeme.lexFrom_token (t := .name "a") (by decide) (by rfl)]
    show (Lexeme.lexFrom (start + 1) (' ' :: '+' :: [' ', 'b'])).map _ = _
    rw [Lexeme.lexFrom_gap (by decide), Lexeme.lexFrom_stray (by decide) (by rfl)]
    rfl
  have htrimmed : Formula.read "a + b" = .error (Lexeme.stray 2 ['+']) := by
    rw [Formula.read_eq, Formula.readChars, hsum]
    rfl
  have hindented : Formula.read "  a + b" = .error (Lexeme.stray 4 ['+']) := by
    have hchars : "  a + b".toList = [' ', ' '] ++ "a + b".toList := by simp
    have hgaps : ∀ c ∈ [' ', ' '], Lexeme.isGap c = true := by simp [Lexeme.isGap]
    rw [Formula.read_eq, Formula.readChars, hchars, Lexeme.lexFrom_gaps hgaps, hsum]
    rfl
  have hblank : Formula.read "\u00a0a" = .error (Lexeme.stray 0 ['\u00a0']) := by
    rw [Formula.read_eq, Formula.readChars,
      show "\u00a0a".toList = '\u00a0' :: ['a'] from rfl,
      Lexeme.lexFrom_stray (by decide) (congrArg _ (Lexeme.munch_of_isBlank (by decide) ['a'])),
      Lexeme.munch_of_isBlank (by decide) ['a']]
    rfl
  have hname : Formula.read "a" = .ok (.path ["a"]) := by
    have hlex : Lexeme.lex "a" = .ok [⟨.name "a", ⟨0, 1⟩⟩] := by
      show Lexeme.lexFrom 0 ['a'] = _
      rw [Lexeme.lexFrom_token (t := .name "a") (by decide) (by rfl)]
      show (Lexeme.lexFrom 1 []).map _ = _
      rw [Lexeme.lexFrom]
      rfl
    rw [Formula.read_eq_run, hlex]
    rfl
  have hat : ∀ field t, (field, Json.text t) ∈ indentedLine.fields.entries →
      indented.At ("l/a." ++ field) t := by
    intro field t hfield
    have hplace : "l" ++ "/" ++ "a" ++ "." ++ field ++ "" = "l/a." ++ field := String.append_empty
    rw [← hplace]
    exact @At.intro indented ⟨"l", 0, [indentedLine]⟩ "a" indentedLine field (.text t) "" t
      List.mem_cons_self List.mem_cons_self hfield (.here t)
  refine ⟨(indented.mem_issues_iff _).mpr ⟨_, hat "from" _ List.mem_cons_self, by decide,
    hindented⟩, fun scope => ?_,
    (indented.mem_issues_iff _).mpr
      ⟨_, hat "to" _ (List.mem_cons_of_mem _ List.mem_cons_self), by decide, hblank⟩, ?_⟩
  · rw [scope.evaluate_eq_error_iff _ (Formula.syntactic_of_read htrimmed),
      show Text.trim "  a + b" = "a + b" by decide]
    exact htrimmed
  · rw [Scope.evaluate, show Text.trim "\u00a0a" = "a" by decide, hname]
    rfl

end Blueprint

end Figures
