import Figures.Order.Row
import Figures.Proofs.Except
import Figures.Proofs.Text.Pieces
import Mathlib.Data.List.Nodup

/-!
# Orders of rows

* `Row.Yields row o`    what an order has of the columns of its row
* `Row.Refused row err` why a row is no order
* `Order.Normal o`      what holds of every order of a row: its texts are clean
* `Order.row`           an order written as a row again
* `Row.order_normal`    the orders of rows are normal and are read back; the rows that are none
-/

namespace Figures

/-! ### names -/

/-- where names differ, the owner of a name is found -/
theorem find?_name_iff {α : Type} {l : List α} {name : α → String} (hall : ∀ a, a ∈ l)
    (hnames : (l.map name).Nodup)
    {s : String} {a : α} : l.find? (fun b => name b == s) = some a ↔ name a = s := by
  constructor
  · intro h
    have hname := List.find?_some h
    exact eq_of_beq hname
  · rintro rfl
    have hsome : (l.find? fun b => name b == name a).isSome :=
      List.find?_isSome.mpr ⟨a, hall a, by simp⟩
    obtain ⟨b, hb⟩ := Option.isSome_iff_exists.mp hsome
    have hname := List.find?_some hb
    rw [hb, List.inj_on_of_nodup_map hnames (hall b) (hall a) (eq_of_beq hname)]

theorem Mode.ofText?_eq_some_iff {s : String} {m : Mode} :
    ofText? s = some m ↔ m.name = Text.lower (Text.trim s) :=
  find?_name_iff (fun m => by cases m <;> decide) (by decide)

namespace FigureKind

theorem mem_all (k : FigureKind) : k ∈ all := by cases k <;> decide

theorem ofName?_eq_some_iff {s : String} {k : FigureKind} : ofName? s = some k ↔ k.name = s :=
  find?_name_iff mem_all (by decide)

theorem clean_templateId (k : FigureKind) : Text.Clean k.templateId ∧
    ∀ j : FigureKind, j.name ≠ k.templateId := by
  constructor
  · cases k <;> exact ⟨by rintro _ ⟨⟩; rfl, by rintro _ ⟨⟩; rfl, by decide⟩
  · have hapart : ∀ k ∈ all, ∀ j ∈ all, j.name ≠ k.templateId := by decide
    exact fun j => hapart k k.mem_all j j.mem_all

end FigureKind

/-! ### rows and orders -/

namespace Row

/-- what an order has of the mode of its row: a blank one is auto, and custom is none -/
def Moded (column : Option String) (m : Mode) : Prop :=
  m ≠ .custom ∧ ((m = .auto ∧ ∀ s ∈ column, Text.isBlank s = true) ∨
    ∃ s name, column = some s ∧ Text.Trims s name ∧ m.name = Text.lower name)

/-- what an order has of the template of its row: the id of the kind that is named, or else the
text -/
def Templated (column v : Option String) : Prop :=
  ∀ id, v = some id ↔ ∃ s name, column = some s ∧ Text.Trims s name ∧
    ((∃ k : FigureKind, k.name = name ∧ k.templateId = id) ∨
      ((∀ k : FigureKind, k.name ≠ name) ∧ name = id))

structure Yields (row : Row) (o : Order) : Prop where
  title : Text.Trims row.title o.title
  mode : Moded row.mode o.request.mode
  templateId : Templated row.templateId o.request.templateId
  params : o.request.params = row.params.getD {}
  placement : Text.Kept row.placement o.request.placement
  caption : Text.Kept row.caption o.request.caption
  alt : Text.Kept row.alt o.request.alt
  subjectId : Text.Kept row.subjectId o.subjectId
  /-- the pieces that are not blank, trimmed, in their order -/
  tags : ∃ ps, Text.Pieces (row.tags.getD "") ps ∧
    o.tags = (ps.filter fun p => !Text.isBlank p).map Text.trim
  /-- nothing else is in a row -/
  rest : o.request.diagramId = none ∧ o.request.custom = none

/-- why a row is no order: the title comes first, then the mode -/
inductive Refused (row : Row) : RowError → Prop
  | untitled : Text.isBlank row.title = true → Refused row .missingTitle
  | unknown {s name : String} : Text.isBlank row.title = false → row.mode = some s →
      Text.Trims s name → (∀ m : Mode, m.name ≠ Text.lower name) → Refused row (.unknownMode name)
  | custom {s name : String} : Text.isBlank row.title = false → row.mode = some s →
    Text.Trims s name →
      Mode.custom.name = Text.lower name → Refused row (.unsupportedMode .custom)

end Row

/-- what holds of the order of any row -/
structure Order.Normal (o : Order) : Prop where
  title : Text.Clean o.title
  mode : o.request.mode ≠ .custom
  templateId : ∀ id ∈ o.request.templateId, Text.Clean id ∧ ∀ k : FigureKind, k.name ≠ id
  placement : ∀ t ∈ o.request.placement, Text.Clean t
  caption : ∀ t ∈ o.request.caption, Text.Clean t
  alt : ∀ t ∈ o.request.alt, Text.Clean t
  subjectId : ∀ t ∈ o.subjectId, Text.Clean t
  tags : ∀ t ∈ o.tags, Text.Clean t ∧ ';' ∉ t.toList
  rest : o.request.diagramId = none ∧ o.request.custom = none

def Order.row (o : Order) : Row where
  title := o.title
  templateId := o.request.templateId
  mode := some o.request.mode.name
  placement := o.request.placement
  caption := o.request.caption
  alt := o.request.alt
  subjectId := o.subjectId
  tags := some (Text.join ";" o.tags)
  params := some o.request.params

namespace Row

/-! ### columns -/

section
variable {s name : String} (h : Text.Trims s name)
include h

theorem modeOf_named {m : Mode} (hne : m ≠ .custom) (hm : m.name = Text.lower name) :
    modeOf (some s) = .ok m := by
  rw [← h.clean.trim] at hm
  rw [modeOf, (Text.kept_nonBlank? (some s) name).mpr ⟨s, rfl, h⟩]
  dsimp only
  rw [Mode.ofText?_eq_some_iff.mpr hm]
  cases m with
  | custom => exact absurd rfl hne
  | _ => rfl

theorem modeOf_custom (hm : Mode.custom.name = Text.lower name) :
    modeOf (some s) = .error (.unsupportedMode .custom) := by
  rw [← h.clean.trim] at hm
  rw [modeOf, (Text.kept_nonBlank? (some s) name).mpr ⟨s, rfl, h⟩]
  dsimp only
  rw [Mode.ofText?_eq_some_iff.mpr hm]

theorem modeOf_unknown (hm : ∀ m : Mode, m.name ≠ Text.lower name) :
    modeOf (some s) = .error (.unknownMode name) := by
  have hnone : Mode.ofText? name = none := by
    refine Option.eq_none_iff_forall_ne_some.mpr fun m hsome => hm m ?_
    rw [Mode.ofText?_eq_some_iff.mp hsome, h.clean.trim]
  rw [modeOf, (Text.kept_nonBlank? (some s) name).mpr ⟨s, rfl, h⟩]
  dsimp only
  rw [hnone]

end

theorem modeOf_cases (column : Option String) :
    (∃ m, modeOf column = .ok m ∧ Moded column m) ∨
      ∃ err s name, modeOf column = .error err ∧ column = some s ∧ Text.Trims s name ∧
        (err = .unknownMode name ∧ (∀ m : Mode, m.name ≠ Text.lower name) ∨
          err = .unsupportedMode .custom ∧ Mode.custom.name = Text.lower name) := by
  have hkept := Text.kept_nonBlank? column
  cases hname : Text.nonBlank? column with
  | none =>
    rw [hname] at hkept
    exact .inl ⟨.auto, by rw [modeOf, hname], nofun, .inl ⟨rfl, hkept.isBlank⟩⟩
  | some name =>
    obtain ⟨s, rfl, htrims⟩ := (hkept name).mp hname
    by_cases hnone : ∀ m : Mode, m.name ≠ Text.lower name
    · exact .inr ⟨_, s, name, modeOf_unknown htrims hnone, rfl, htrims, .inl ⟨rfl, hnone⟩⟩
    · obtain ⟨m, hm⟩ := not_forall_not.mp hnone
      by_cases hcustom : m = .custom
      · subst hcustom
        exact .inr ⟨_, s, name, modeOf_custom htrims hm, rfl, htrims, .inr ⟨rfl, hm⟩⟩
      · exact .inl ⟨m, modeOf_named htrims hcustom hm, hcustom, .inr ⟨s, name, rfl, htrims, hm⟩⟩

theorem modeOf_name {m : Mode} (h : m ≠ .custom) : modeOf (some m.name) = .ok m := by
  cases m with
  | custom => exact absurd rfl h
  | _ => rfl

theorem templated_templateOf (column : Option String) : Templated column (templateOf column) := by
  intro id
  have hkept := Text.kept_nonBlank? column
  rw [templateOf, Option.map_eq_some_iff]
  constructor
  · rintro ⟨name, hname, rfl⟩
    obtain ⟨s, hs, htrims⟩ := (hkept name).mp hname
    refine ⟨s, name, hs, htrims, ?_⟩
    cases hkind : FigureKind.ofName? name with
    | some k => exact .inl ⟨k, FigureKind.ofName?_eq_some_iff.mp hkind, rfl⟩
    | none =>
      refine .inr ⟨fun k hk => ?_, rfl⟩
      rw [FigureKind.ofName?_eq_some_iff.mpr hk] at hkind
      cases hkind
  · rintro ⟨s, name, hs, htrims, hid⟩
    refine ⟨name, (hkept name).mpr ⟨s, hs, htrims⟩, ?_⟩
    rcases hid with ⟨k, hk, rfl⟩ | ⟨hnone, rfl⟩
    · rw [FigureKind.ofName?_eq_some_iff.mpr hk]
    · have hkind : FigureKind.ofName? name = none :=
        Option.eq_none_iff_forall_ne_some.mpr fun k hk =>
          hnone k (FigureKind.ofName?_eq_some_iff.mp hk)
      rw [hkind]

/-- the id of a template that is no name of a kind is kept -/
theorem templateOf_of_clean {v : Option String}
    (h : ∀ id ∈ v, Text.Clean id ∧ ∀ k : FigureKind, k.name ≠ id) : templateOf v = v := by
  cases v with
  | none => rfl
  | some id =>
    obtain ⟨hclean, hnone⟩ := h id rfl
    exact (templated_templateOf (some id) id).mpr ⟨id, id, rfl, hclean.trims, .inr ⟨hnone, rfl⟩⟩

/-! ### rows -/

def inMode (row : Row) (mode : Mode) : Order where
  title := Text.trim row.title
  request := {
    mode
    templateId := templateOf row.templateId
    params := row.params.getD {}
    placement := Text.nonBlank? row.placement
    caption := Text.nonBlank? row.caption
    alt := Text.nonBlank? row.alt }
  subjectId := Text.nonBlank? row.subjectId
  tags := Text.entries (row.tags.getD "")

/-- the title comes first, then the mode -/
theorem order_eq (row : Row) :
    row.order = if Text.isBlank row.title then .error .missingTitle else (modeOf row.mode).map
      row.inMode := by
  rw [order, Text.isEmpty_trim]
  cases modeOf row.mode <;> rfl

theorem yields_inMode {row : Row} {m : Mode} (htitle : Text.isBlank row.title = false)
    (hm : Moded row.mode m) :
    row.Yields (row.inMode m) where
  title := Text.trims_iff.mpr ⟨htitle, rfl⟩
  mode := hm
  templateId := templated_templateOf row.templateId
  params := rfl
  placement := Text.kept_nonBlank? row.placement
  caption := Text.kept_nonBlank? row.caption
  alt := Text.kept_nonBlank? row.alt
  subjectId := Text.kept_nonBlank? row.subjectId
  tags := ⟨_, Text.pieces_iff.mpr rfl, (Text.pieces_iff.mpr rfl).entries_eq⟩
  rest := ⟨rfl, rfl⟩

theorem order_cases (row : Row) :
    (∃ o, row.order = .ok o ∧ row.Yields o) ∨ ∃ err, row.order = .error err ∧ row.Refused err := by
  rw [order_eq]
  cases htitle : Text.isBlank row.title with
  | true => exact .inr ⟨.missingTitle, rfl, .untitled htitle⟩
  | false =>
    rw [if_neg Bool.false_ne_true]
    rcases modeOf_cases row.mode with ⟨m, hm, hmoded⟩ | ⟨err, s, name, hm, hs, htrims, hreason⟩
    · exact .inl ⟨row.inMode m, by rw [hm]; rfl, yields_inMode htitle hmoded⟩
    · refine .inr ⟨err, by rw [hm]; rfl, ?_⟩
      rcases hreason with ⟨rfl, hnone⟩ | ⟨rfl, hcustom⟩
      · exact .unknown htitle hs htrims hnone
      · exact .custom htitle hs htrims hcustom

theorem yields_of_order {row : Row} {o : Order} (h : row.order = .ok o) : row.Yields o := by
  rcases order_cases row with ⟨o', ho, hyields⟩ | ⟨err, herr, -⟩
  · obtain rfl := Except.ok.inj (h.symm.trans ho)
    exact hyields
  · cases h.symm.trans herr

theorem order_eq_error_iff {row : Row} {err : RowError} : row.order = .error err ↔
    row.Refused err := by
  constructor
  · intro h
    rcases order_cases row with ⟨o, ho, -⟩ | ⟨err', herr, hrefused⟩
    · cases h.symm.trans ho
    · obtain rfl := Except.error.inj (h.symm.trans herr)
      exact hrefused
  · intro h
    rw [order_eq]
    cases h with
    | untitled htitle => rw [htitle, if_pos rfl]
    | unknown htitle hs htrims hnone => rw [htitle, hs, modeOf_unknown htrims hnone]; rfl
    | custom htitle hs htrims hcustom => rw [htitle, hs, modeOf_custom htrims hcustom]; rfl

theorem Templated.clean {column v : Option String} (h : Templated column v) :
    ∀ id ∈ v, Text.Clean id ∧ ∀ k : FigureKind, k.name ≠ id := by
  intro id hid
  obtain ⟨s, name, -, htrims, ⟨k, -, rfl⟩ | ⟨hnone, rfl⟩⟩ := (h id).mp hid
  · exact k.clean_templateId
  · exact ⟨htrims.clean, hnone⟩

theorem Yields.normal {row : Row} {o : Order} (h : row.Yields o) : o.Normal where
  title := h.title.clean
  mode := h.mode.1
  templateId := h.templateId.clean
  placement := h.placement.clean
  caption := h.caption.clean
  alt := h.alt.clean
  subjectId := h.subjectId.clean
  tags := by
    obtain ⟨ps, hps, htags⟩ := h.tags
    rw [htags, ← hps.entries_eq]
    exact fun t => Text.clean_of_mem_entries
  rest := h.rest

end Row

/-- a normal order is read back from its row -/
theorem Order.Normal.order_row {o : Order} (h : o.Normal) : o.row.order = .ok o := by
  have hrequest : o.row.inMode o.request.mode = o := by
    obtain ⟨title, request, subjectId, tags⟩ := o
    obtain ⟨mode, templateId, diagramId, params, custom, placement, caption, alt⟩ := request
    obtain ⟨rfl, rfl⟩ := h.rest
    simp only [Row.inMode, row, h.title.trim, Row.templateOf_of_clean h.templateId,
      Option.getD_some, Text.nonBlank?_of_clean h.placement, Text.nonBlank?_of_clean h.caption,
      Text.nonBlank?_of_clean h.alt, Text.nonBlank?_of_clean h.subjectId, Text.entries_join h.tags]
  have htitle : Text.isBlank o.row.title = false := h.title.isBlank
  have hmode : Row.modeOf o.row.mode = .ok o.request.mode := Row.modeOf_name h.mode
  rw [Row.order_eq, htitle, hmode]
  exact congrArg Except.ok hrequest

namespace Row

/-- **Orders of rows are in normal form.** Where a row yields an order, the order has the columns of
the row without the blanks around them, and nothing of those that are blank: its texts are clean. A
template is given by its id, never by the name of a kind, and the tags are the pieces between the
semicolons, trimmed and without the blank ones, in their order. Written as a row again, the order is
read back. A row is no order if its title is blank, or else if its mode is unknown, or else if it is
custom, and in no other case. -/
theorem order_normal (row : Row) :
    (∀ o, row.order = .ok o → row.Yields o ∧ o.Normal ∧ o.row.order = .ok o) ∧
      ∀ err, row.order = .error err ↔ row.Refused err := by
  refine ⟨fun o ho => ?_, fun err => order_eq_error_iff⟩
  have hyields := yields_of_order ho
  exact ⟨hyields, hyields.normal, hyields.normal.order_row⟩

def looseRow : Row :=
  { title := "\u3000Circle ", templateId := some " circle", mode := some " Template ", alt :=
    some "  ", subjectId := some "maths\n", tags := some " geometry; ;year 8 ;" }

def looseOrder : Order :=
  { title := "Circle", request := .ofTemplate "math.geometry.circle.v1", subjectId := some "maths",
    tags := ["geometry", "year 8"] }

theorem order_normal_loose : looseRow.order = .ok looseOrder ∧ looseOrder.Normal ∧
    looseOrder.row.order = .ok looseOrder ∧
    { looseRow with title := "\t", mode := some "custom" }.order = .error .missingTitle := by
  have horder : looseRow.order = .ok looseOrder := by rfl
  obtain ⟨-, hnormal, hback⟩ := (order_normal looseRow).1 looseOrder horder
  exact ⟨horder, hnormal, hback, (order_normal _).2 .missingTitle |>.mpr (.untitled (by decide))⟩

end Row

end Figures
