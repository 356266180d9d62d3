import Figures.Proofs.Figure.Ids
import Figures.Proofs.Number.Order
import Figures.Proofs.Sheet.Circles

/-!
# The positions of a coordinate grid

* `Frame.Shows f given`          the position is a point inside the frame, edges included
* `notice name given`            the warning for a position that is not shown
* `eq_of_notice`                 no warning is that of two names
* `Accounts f entries cs ws`     each entry, in order, gives one circle or one warning
* `accounts_plots`               so it is with the plots of any list of entries
* `Accounts.nodup_circles`       among entries with different names none is lost and none comes up
                                 twice
* `accounts_draw`                the circles and the warnings of a coordinate grid are those of its
                                 positions, and there are no others
-/

namespace Figures

open Markup

def Scene.circles (s : Scene) : List String := (Pen.group s.root s.drawing).circles

theorem Template.isNaN_of_ticks {lo hi step : Float} {limit : ℕ} {xs : List Float}
    (h : ticks lo hi step limit = some xs) : lo.isNaN = false ∧ hi.isNaN = false := by
  unfold ticks at h
  split at h
  · cases h
  · rename_i hnumbers
    simp only [Bool.or_eq_true, not_or, Bool.not_eq_true] at hnumbers
    exact ⟨hnumbers.1.1.1.2, hnumbers.1.1.2⟩

namespace CoordinateGrid

variable {f : Frame} {name : String} {given : Position}

/-- the point is inside the frame or on its edges -/
def Frame.Holds (f : Frame) (p : Point) : Prop :=
  f.xMin ≤ p.x ∧ p.x ≤ f.xMax ∧ f.yMin ≤ p.y ∧ p.y ≤ f.yMax

/-- the position is a point, and it is inside the frame or on its edges -/
def Frame.Shows (f : Frame) (given : Position) : Prop := ∃ p, given.point? = some p ∧ f.Holds p

instance (f : Frame) (p : Point) : Decidable (f.Holds p) := inferInstanceAs
    (Decidable (_ ∧ _ ∧ _ ∧ _))

instance (f : Frame) (given : Position) : Decidable (f.Shows given) :=
  decidable_of_iff ((given.point?.any fun p => decide (f.Holds p)) = true) (by
    simp [Frame.Shows, Option.any_eq_true])

/-- the bounds of the frame are those of the parameters -/
structure Framed (params : Params) (f : Frame) : Prop where
  xMin : params.number? "xMin" = some f.xMin
  xMax : params.number? "xMax" = some f.xMax
  yMin : params.number? "yMin" = some f.yMin
  yMax : params.number? "yMax" = some f.yMax

structure Frame.Numeric (f : Frame) : Prop where
  xMin : f.xMin.isNaN = false
  xMax : f.xMax.isNaN = false
  yMin : f.yMin.isNaN = false
  yMax : f.yMax.isNaN = false

theorem isFinite_of_point? {p : Point} (h : given.point? = some p) : p.isFinite = true := by
  cases given with
  | known q =>
    rw [Position.point?] at h
    split at h
    · cases h
      assumption
    · cases h
  | malformed v => cases h

theorem not_lt_iff {x y : Float} (hx : x.isNaN = false) (hy : y.isNaN = false) : ¬ y < x ↔ x ≤ y :=
  ⟨le_of_not_lt hx hy, not_lt_of_le⟩

theorem excludes_iff (hf : f.Numeric) {p : Point} (hp : p.isFinite = true) :
    f.excludes p = false ↔ f.Holds p := by
  rw [Point.isFinite, Bool.and_eq_true] at hp
  have hx := isNaN_of_isFinite hp.1
  have hy := isNaN_of_isFinite hp.2
  rw [Frame.Holds, ← not_lt_iff hf.xMin hx, ← not_lt_iff hx hf.xMax, ← not_lt_iff hf.yMin hy,
    ← not_lt_iff hy hf.yMax]
  simp [Frame.excludes, and_assoc]

/-! ### warnings -/

/-- the warning for a position that is no point -/
def skipped (name : String) : String := s!"Point {name} has no numeric coordinates and was skipped"

def outside (name : String) (p : Point) : String :=
    s!"Point {name} {pairText p} lies outside the grid"

def notice (name : String) (given : Position) : String := (given.point?.map (outside name)).getD
    (skipped name)

/-- behind its last bracket a text determines what stands before it -/
theorem eq_of_append_bracket {k l s t : List Char} (hs : '(' ∉ s) (ht : '(' ∉ t)
    (h : k ++ '(' :: s = l ++ '(' :: t) : k = l := by
  have hempty : ∀ {a s t : List Char}, '(' ∉ s → '(' :: s = a ++ '(' :: t → a = [] := by
    intro a s t hs h
    cases a with
    | nil => rfl
    | cons c a =>
      obtain ⟨-, rfl⟩ := List.cons.inj h
      exact absurd (List.mem_append_right _ List.mem_cons_self) hs
  rcases List.append_eq_append_iff.mp h with ⟨a, rfl, hrest⟩ | ⟨a, rfl, hrest⟩
  · rw [hempty hs hrest, List.append_nil]
  · rw [hempty ht hrest, List.append_nil]

theorem eq_of_skipped {k l : String} (h : skipped k = skipped l) : k = l :=
  (String.append_right_inj _).mp ((String.append_left_inj _).mp h)

/-- the coordinates of a point behind the bracket that opens them -/
def pairRest (p : Point) : List Char :=
  (tidy 2 p.x).toList ++ ", ".toList ++ (tidy 2 p.y).toList ++ [')']

theorem bracket_not_mem_pairRest (p : Point) : '(' ∉ pairRest p := by
  have htidy : ∀ x : Float, '(' ∉ (tidy 2 x).toList :=
    fun x h => absurd (numeral_tidy 2 x '(' h) (by decide)
  simp [pairRest, htidy]

theorem toList_outside (name : String) (p : Point) : (outside name p).toList
    = "Point ".toList ++ ((name.toList ++ [' ']) ++ '(' :: pairRest p) ++
      " lies outside the grid".toList := by
  have htext : outside name p
      = "Point " ++ name ++ " " ++ ("(" ++ tidy 2 p.x ++ ", " ++ tidy 2 p.y ++ ")") ++
        " lies outside the grid" := rfl
  simp [htext, pairRest, String.toList_append]

theorem eq_of_outside {k l : String} {p q : Point} (h : outside k p = outside l q) : k = l := by
  have hchars := congrArg String.toList h
  rw [toList_outside, toList_outside, List.append_left_inj, List.append_right_inj] at hchars
  have hnames := eq_of_append_bracket (bracket_not_mem_pairRest p)
    (bracket_not_mem_pairRest q) hchars
  exact String.toList_inj.mp (List.append_cancel_right hnames)

theorem skipped_ne_outside (k l : String) (p : Point) : skipped k ≠ outside l p := by
  intro h
  have hsuffix : ∀ {s t : String}, t.toList <:+ (s ++ t).toList := by
    intro s t
    rw [String.toList_append]
    exact List.suffix_append _ _
  have hskipped : " has no numeric coordinates and was skipped".toList <:+
      (skipped k).toList := hsuffix
  have houtside : " lies outside the grid".toList <:+ (skipped k).toList := h ▸ hsuffix
  exact absurd (List.suffix_of_suffix_length_le houtside hskipped (by decide)) (by decide)

/-- no warning is that of two names -/
theorem eq_of_notice {k l : String} {g g' : Position} (h : notice k g = notice l g') : k = l := by
  unfold notice at h
  cases hg : g.point? with
  | none =>
    cases hg' : g'.point? with
    | none => exact eq_of_skipped (by simpa [hg, hg'] using h)
    | some q => exact absurd (by simpa [hg, hg'] using h) (skipped_ne_outside k l q)
  | some p =>
    cases hg' : g'.point? with
    | none => exact absurd (by simpa [hg, hg'] using h.symm) (skipped_ne_outside l k p)
    | some q => exact eq_of_outside (p := p) (q := q) (by simpa [hg, hg'] using h)

/-! ### plots -/

/-- each entry, in order, gives either one circle or one warning -/
inductive Accounts (f : Frame) : List (String × Position) → List String → List String → Prop
  | nil : Accounts f [] [] []
  | drawn {name : String} {given : Position} {entries : List (String × Position)}
    {circles warnings : List String}
      (hshown : f.Shows given) (hrest : Accounts f entries circles warnings) :
      Accounts f ((name, given) :: entries) (Element.point.id name :: circles) warnings
  | reported {name : String} {given : Position} {entries : List (String × Position)}
    {circles warnings : List String}
      (hshown : ¬ f.Shows given) (hrest : Accounts f entries circles warnings) :
      Accounts f ((name, given) :: entries) circles (notice name given :: warnings)

variable (params : Params) (pen : Pen)

theorem plot_of_shows (name : String) (hf : f.Numeric) (h : f.Shows given) :
    (plot params pen f name given).1.circles = [Element.point.id name] ∧
      (plot params pen f name given).2 = [] := by
  obtain ⟨p, hp, hholds⟩ := h
  have hin := (excludes_iff hf (isFinite_of_point? hp)).mpr hholds
  simp [plot, hp, hin]

theorem plot_of_not_shows (name : String) (hf : f.Numeric) (h : ¬ f.Shows given) :
    (plot params pen f name given).1.circles = [] ∧
      (plot params pen f name given).2 = [notice name given] := by
  cases hp : given.point? with
  | none => simp [plot, notice, skipped, hp]
  | some p =>
    have hout : f.excludes p = true := by
      rw [← Bool.not_eq_false, excludes_iff hf (isFinite_of_point? hp)]
      exact fun hholds => h ⟨p, hp, hholds⟩
    simp [plot, notice, outside, hp, hout]

def plots (f : Frame) (entries : List (String × Position)) : List (Drawing × List String) :=
  entries.map fun e => plot params pen f e.1 e.2

theorem accounts_plots (hf : f.Numeric) (entries : List (String × Position)) :
    Accounts f entries ((plots params pen f entries).flatMap fun e => e.1.circles)
      ((plots params pen f entries).flatMap Prod.snd) := by
  induction entries with
  | nil => exact .nil
  | cons e entries ih =>
    obtain ⟨name, given⟩ := e
    rw [plots, List.map_cons, List.flatMap_cons, List.flatMap_cons]
    by_cases h : f.Shows given
    · obtain ⟨hcircle, hwarning⟩ := plot_of_shows params pen name hf h
      rw [hcircle, hwarning]
      exact .drawn h ih
    · obtain ⟨hcircle, hwarning⟩ := plot_of_not_shows params pen name hf h
      rw [hcircle, hwarning]
      exact .reported h ih

namespace Accounts

variable {entries : List (String × Position)} {circles warnings : List String}

theorem circles_eq (h : Accounts f entries circles warnings) :
    circles = (entries.filter fun e => f.Shows e.2).map fun e => Element.point.id e.1 := by
  induction h with
  | nil => rfl
  | drawn hshown hrest ih => rw [ih, List.filter_cons_of_pos (by simpa using hshown), List.map_cons]
  | reported hshown hrest ih => rw [ih, List.filter_cons_of_neg (by simpa using hshown)]

theorem warnings_eq (h : Accounts f entries circles warnings) :
    warnings = (entries.filter fun e => ¬ f.Shows e.2).map fun e => notice e.1 e.2 := by
  induction h with
  | nil => rfl
  | drawn hshown hrest ih => rw [ih, List.filter_cons_of_neg (by simpa using hshown)]
  | reported hshown hrest ih =>
    rw [ih, List.filter_cons_of_pos (by simpa using hshown), List.map_cons]

theorem mem_circles_iff (h : Accounts f entries circles warnings) {name : String} :
    Element.point.id name ∈ circles ↔ ∃ given, (name, given) ∈ entries ∧ f.Shows given := by
  rw [h.circles_eq]
  simp [Element.id_inj]

/-- a warning with a name is that of an entry with this name, and this entry is not shown -/
theorem notice_mem_iff (h : Accounts f entries circles warnings) {name : String}
    {given : Position} :
    notice name given ∈ warnings ↔ ∃ other, (name, other) ∈ entries ∧
      ¬ f.Shows other ∧ notice name given = notice name other := by
  rw [h.warnings_eq]
  simp only [List.mem_map, List.mem_filter, Prod.exists, decide_eq_true_eq]
  constructor
  · rintro ⟨k, other, ⟨hmem, hshown⟩, heq⟩
    obtain rfl := eq_of_notice heq
    exact ⟨other, hmem, hshown, heq.symm⟩
  · rintro ⟨other, hmem, hshown, heq⟩
    exact ⟨name, other, ⟨hmem, hshown⟩, heq.symm⟩

theorem nodup_circles (h : Accounts f entries circles warnings)
    (hnames : (entries.map Prod.fst).Nodup) :
    circles.Nodup := by
  rw [h.circles_eq]
  refine List.Nodup.sublist (List.filter_sublist.map _)
    (?_ : (entries.map fun e => Element.point.id e.1).Nodup)
  exact List.map_map (g := Element.point.id) ▸ hnames.map fun _ _ => Element.id_inj.mp

theorem nodup_warnings (h : Accounts f entries circles warnings)
    (hnames : (entries.map Prod.fst).Nodup) :
    warnings.Nodup := by
  rw [h.warnings_eq]
  refine List.Nodup.sublist (List.filter_sublist.map _)
    (?_ : (entries.map fun e => notice e.1 e.2).Nodup)
  rw [List.Nodup, List.pairwise_map]
  exact (List.pairwise_map.mp hnames).imp fun hne heq => hne (eq_of_notice heq)

end Accounts

/-! ### the figure -/

/-- the circles and the warnings of a coordinate grid are those of its plots -/
theorem plots_scene : Gives (fun s => ∃ f : Frame, Framed params f ∧ f.Numeric ∧
    s.circles = (plots params pen f params.positions.entries).flatMap (fun e => e.1.circles) ∧
    s.warnings = (plots params pen f params.positions.entries).flatMap Prod.snd)
    (scene params pen) := by
  refine .bind fun xMin hxMin => .bind fun xMax hxMax => .bind fun yMin hyMin =>
    .bind fun yMax hyMax => .bind fun step _ => ?_
  refine .ite (fun _ => .bind nofun) fun _ => .ite (fun _ => .bind nofun) fun _ => ?_
  dsimp only
  split
  · rename_i xs hxs
    split
    · rename_i ys hys
      have hframed : Framed params ⟨xMin, xMax, yMin, yMax⟩ :=
        ⟨Params.number?_of_required hxMin, Params.number?_of_required hxMax,
          Params.number?_of_required hyMin, Params.number?_of_required hyMax⟩
      refine .pure ⟨_, hframed, ?numeric, ?circles, rfl⟩
      case numeric =>
        obtain ⟨hxLow, hxHigh⟩ := Template.isNaN_of_ticks hxs
        obtain ⟨hyLow, hyHigh⟩ := Template.isNaN_of_ticks hys
        exact ⟨hxLow, hxHigh, hyLow, hyHigh⟩
      case circles =>
        -- the lines of the grid, the axes and the texts are no circles
        have hnone : ∀ l : List Float, l.flatMap (fun _ => ([] : List String)) = [] :=
          fun l => List.flatMap_eq_nil_iff.mpr fun _ _ => rfl
        simp [Scene.circles, gridLines, axes, tickLabels, plots, List.flatMap_map, hnone]
    · exact .error _
  · exact .error _

/-- Every position of a coordinate grid that is drawn is accounted for exactly once, in the order of
the keys: a point inside the bounds of the parameters, edges included, gives exactly one circle with
its id, and any other position gives exactly one warning with its name. There are no other circles
and no other warnings. The circles are those in the text of the image wherever the style rules are
no markup. -/
theorem accounts_draw (params : Params) (ctx : Context) (image : Image)
    (h : coordinateGrid.draw params ctx = .drawn image) :
    ∃ (f : Frame) (circles : List String), Framed params f ∧
      Accounts f params.positions.entries circles image.warnings ∧
      (∀ e ∈ params.positions.entries,
        (f.Shows e.2 → circles.count (Element.point.id e.1) = 1 ∧
          ∀ given, notice e.1 given ∉ image.warnings) ∧
        (¬ f.Shows e.2 → Element.point.id e.1 ∉ circles ∧
          image.warnings.count (notice e.1 e.2) = 1 ∧
          ∀ given, notice e.1 given ∈ image.warnings → notice e.1 given = notice e.1 e.2)) ∧
      (∃ s : Scene, image = s.image ctx ∧ s.circles = circles) ∧
      (ctx.palette.Plain → ∃ marks, read? image.svg = some marks ∧
        Markup.circles marks = circles.map String.toList) := by
  rw [show coordinateGrid = FigureKind.coordinateGrid.template from rfl,
    FigureKind.draw_template] at h
  split at h
  · rename_i s hs
    cases h
    obtain ⟨f, hframed, hnumeric, hcircles, hwarnings⟩ := plots_scene params (Pen.of ctx) s hs
    have haccounts := accounts_plots params (Pen.of ctx) hnumeric params.positions.entries
    rw [← hcircles, ← hwarnings] at haccounts
    have hnames := Dict.nodup_keys params.positions
    have hunique : ∀ {name given other}, (name, given) ∈ params.positions.entries →
        (name, other) ∈ params.positions.entries → given = other := fun hgiven hother =>
      Option.some.inj ((Dict.lookup_of_mem params.positions.ascending hgiven).symm.trans
        (Dict.lookup_of_mem params.positions.ascending hother))
    refine ⟨f, s.circles, hframed, haccounts, ?_, ⟨s, rfl, rfl⟩, fun hplain =>
      ⟨_, FigureKind.read_image hs hplain, circles_documentMarks _ _ _ _ _⟩⟩
    rintro ⟨name, given⟩ hmem
    refine ⟨fun hshown => ⟨?_, ?_⟩, fun hshown => ⟨?_, ?_, ?_⟩⟩
    · exact List.count_eq_one_of_mem (haccounts.nodup_circles hnames)
        (haccounts.mem_circles_iff.mpr ⟨given, hmem, hshown⟩)
    · intro other hother
      obtain ⟨given', hmem', hshown', -⟩ := haccounts.notice_mem_iff.mp hother
      exact hshown' (hunique hmem hmem' ▸ hshown)
    · intro hcircle
      obtain ⟨given', hmem', hshown'⟩ := haccounts.mem_circles_iff.mp hcircle
      exact hshown (hunique hmem' hmem ▸ hshown')
    · exact List.count_eq_one_of_mem (haccounts.nodup_warnings hnames)
        (haccounts.notice_mem_iff.mpr ⟨given, hmem, hshown, rfl⟩)
    · intro other hother
      obtain ⟨given', hmem', -, heq⟩ := haccounts.notice_mem_iff.mp hother
      rw [heq, hunique hmem' hmem]
  · cases h

/-- a grid with a point inside, one outside, one that is none, and one in a corner -/
def mixed : Params where
  values := .ofList [("step", .number 1.0), ("xMax", .number 5.0), ("xMin", .number (-5.0)),
    ("yMax", .number 5.0), ("yMin", .number (-5.0))]
  positions := .ofList [("P", .known ⟨2.0, 3.0⟩), ("Q", .known ⟨7.0, 3.0⟩), ("R", .malformed .null),
    ("S", .known ⟨5.0, -5.0⟩)]

/-- two of its positions are drawn, and there are two warnings -/
theorem accounts_draw_mixed : ∃ image marks, coordinateGrid.draw mixed {} = .drawn image ∧
    read? image.svg = some marks ∧
    Markup.circles marks = ["pt:P", "pt:S"].map String.toList ∧
    image.warnings = ["Point Q (7, 3) lies outside the grid",
      "Point R has no numeric coordinates and was skipped"] := by
  obtain ⟨s, hs⟩ : ∃ s, scene mixed (Pen.of {}) = .ok s := ok_of_isOk (by decide)
  have hdraw : coordinateGrid.draw mixed {} = .drawn (s.image {}) := by
    rw [show coordinateGrid = FigureKind.coordinateGrid.template from rfl, FigureKind.draw_template,
      FigureKind.scene, hs]
  obtain ⟨f, circles, hframed, haccounts, -, -, hplain⟩ := accounts_draw mixed {} _ hdraw
  obtain ⟨marks, hread, hmarks⟩ := hplain Palette.plain_standard
  obtain ⟨xMin, xMax, yMin, yMax⟩ := f
  obtain ⟨hxMin, hxMax, hyMin, hyMax⟩ := hframed
  obtain rfl : -5.0 = xMin := Option.some.inj hxMin
  obtain rfl : 5.0 = xMax := Option.some.inj hxMax
  obtain rfl : -5.0 = yMin := Option.some.inj hyMin
  obtain rfl : 5.0 = yMax := Option.some.inj hyMax
  refine ⟨_, marks, hdraw, hread, ?_, ?_⟩
  · rw [hmarks, haccounts.circles_eq]
    decide
  · rw [haccounts.warnings_eq]
    decide

end CoordinateGrid

end Figures
