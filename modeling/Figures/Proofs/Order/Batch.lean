import Figures.Command.Run
import Mathlib.Data.List.Sort

/-!
# Reports on tables of orders

* `Row.outcome`            what comes of a row by itself
* `Batch.reports_add`      a row more in a batch is one report more, whatever stands in the other
                           rows
* `Engine.reports_ofRows`  so the reports on a table are those on its rows, up to their order
* `Engine.fulfilRows_eq`   sorted by their numbers they stand as the rows do
* `Command.batch_aligned`  the report of the command, entry by entry, and its exit code

The orders of a table are carried out behind each other, without the rows between them that are
none; each of their reports finds its place again by the number of its row.
-/

namespace Figures

/-- what comes of a row by itself: its own error, or else what its order leads to -/
def Row.outcome (e : Engine) (policy : Policy) (row : Row) : Except String (String × List String) :=
  match row.order with
  | .error err => .error err.message
  | .ok order =>
    match e.fulfil policy order with
    | .error err => .error err.message
    | .ok record => .ok (record.title, record.warnings)

variable (e : Engine) (policy : Policy)

/-! ### batches -/

namespace Batch

def report (order : Except RowError Order) (row : ℕ) : RowReport :=
  match order with
  | .ok order => RowReport.ofRecord row (e.fulfil policy order)
  | .error err => ⟨row, .error err.message⟩

theorem report_order (row : Row) (n : ℕ) : report e policy row.order n =
    ⟨n, row.outcome e policy⟩ := by
  unfold report Row.outcome
  cases row.order with
  | error err => rfl
  | ok order =>
    dsimp only
    cases e.fulfil policy order <;> rfl

theorem reports_add (b : Batch) (order : Except RowError Order) (row : ℕ) :
    (e.reports policy (b.add order row)).Perm (e.reports policy b ++
      [report e policy order row]) := by
  cases order with
  | ok order =>
    have hlength : b.positions.length = (e.fulfilAll policy b.orders).length := by
      rw [Engine.fulfilAll, List.length_map, b.aligned]
    rw [add, Engine.reports, Engine.reports, Engine.fulfilAll, List.map_append, ← Engine.fulfilAll,
      List.zip_append hlength, List.map_append, List.append_assoc]
    rfl
  | error err =>
    -- the report stands before those on the orders, which come last
    rw [add, Engine.reports, Engine.reports, List.append_assoc, List.append_assoc]
    exact List.Perm.append_left _ List.perm_append_comm

end Batch

namespace Engine

theorem reports_foldl (rows : List (Row × ℕ)) (b : Batch) :
    (e.reports policy (rows.foldl (fun b r => b.add r.1.order r.2) b)).Perm
      (e.reports policy b ++ rows.map fun r => ⟨r.2, r.1.outcome e policy⟩) := by
  induction rows generalizing b with
  | nil => rw [List.foldl_nil, List.map_nil, List.append_nil]
  | cons r rows ih =>
    have hstep := (Batch.reports_add e policy b r.1.order r.2).append_right
      (rows.map fun r => ⟨r.2, r.1.outcome e policy⟩)
    rw [Batch.report_order, List.append_assoc, List.singleton_append] at hstep
    rw [List.foldl_cons, List.map_cons]
    exact (ih _).trans hstep

/-- the report on each row by itself, in the order of the rows -/
def alone (rows : List Row) : List RowReport :=
  rows.zipIdx.map fun r => ⟨r.2, r.1.outcome e policy⟩

theorem reports_ofRows (rows : List Row) :
    (e.reports policy (Batch.ofRows rows)).Perm (e.alone policy rows) :=
  e.reports_foldl policy rows.zipIdx {}

/-! ### order -/

theorem getElem?_alone (rows : List Row) (i : ℕ) :
    (e.alone policy rows)[i]? = rows[i]?.map fun row => ⟨i, row.outcome e policy⟩ := by
  rw [alone, List.getElem?_map, List.getElem?_zipIdx, Option.map_map, Nat.zero_add]
  rfl

theorem alone_rows (rows : List Row) :
    (e.alone policy rows).map RowReport.row = List.range rows.length := by
  have hnumbers : rows.zipIdx.map Prod.snd = List.range' 0 rows.length := List.zipIdx_map_snd 0 rows
  rw [alone, List.map_map, List.range_eq_range', ← hnumbers]
  exact List.map_congr_left fun _ _ => rfl

theorem outcome_of_mem_alone {rows : List Row} {r : RowReport} (h : r ∈ e.alone policy rows) :
    rows[r.row]?.map (Row.outcome e policy) = some r.outcome := by
  obtain ⟨⟨row, n⟩, hmem, rfl⟩ := List.mem_map.mp h
  rw [List.mem_zipIdx_iff_getElem?] at hmem
  exact congrArg (Option.map (Row.outcome e policy)) hmem

theorem eq_of_mem_alone {rows : List Row} {a b : RowReport} (ha : a ∈ e.alone policy rows)
    (hb : b ∈ e.alone policy rows) (h : a.row = b.row) : a = b := by
  have hsame := outcome_of_mem_alone e policy ha
  rw [h, outcome_of_mem_alone e policy hb] at hsame
  obtain ⟨row, outcome⟩ := a
  obtain rfl : row = b.row := h
  rw [show outcome = b.outcome from (Option.some.inj hsame).symm]

theorem alone_ascending (rows : List Row) :
    (e.alone policy rows).Pairwise fun a b => a.row < b.row := by
  rw [← List.pairwise_map, alone_rows]
  exact List.pairwise_lt_range

/-- the reports stand as their rows do -/
theorem fulfilRows_eq (rows : List Row) : e.fulfilRows policy rows = e.alone policy rows := by
  have hsorted : (e.fulfilRows policy rows).Pairwise fun a b => a.row ≤ b.row := by
    have htrans : ∀ a b c : RowReport, decide (a.row ≤ b.row) = true →
        decide (b.row ≤ c.row) = true → decide (a.row ≤ c.row) = true := by
      intro a b c hab hbc
      simp only [decide_eq_true_eq] at hab hbc ⊢
      exact Nat.le_trans hab hbc
    have htotal : ∀ a b : RowReport, (decide (a.row ≤ b.row) || decide (b.row ≤ a.row)) = true := by
      intro a b
      simpa using Nat.le_total a.row b.row
    exact (List.pairwise_mergeSort htrans htotal (e.reports policy (Batch.ofRows rows))).imp
      of_decide_eq_true
  have hperm : (e.fulfilRows policy rows).Perm (e.alone policy rows) :=
    (List.mergeSort_perm _ _).trans (e.reports_ofRows policy rows)
  have hascending := (e.alone_ascending policy rows).imp fun h => Nat.le_of_lt h
  exact hperm.eq_of_pairwise (fun a b ha hb hab hba =>
    eq_of_mem_alone e policy (hperm.subset ha) hb (Nat.le_antisymm hab hba)) hsorted hascending

end Engine

/-! ### the report of the command -/

/-- what an entry of a report tells of the row `i` -/
def Row.Told (row : Row) (i : ℕ) (entry : Json) : Prop :=
  entry.member? "row" = some (.integer i) ∧
    match row.outcome e policy with
    | .error message =>
      entry.member? "ok" = some (.boolean false) ∧ entry.member? "error" = some (.text message)
    | .ok (title, warnings) =>
      entry.member? "ok" = some (.boolean true) ∧ entry.member? "title" = some (.text title) ∧
        entry.member? "warnings" = some (.list (warnings.map .text))

theorem Row.told_toJson (row : Row) (i : ℕ) :
    row.Told e policy i (RowReport.toJson ⟨i, row.outcome e policy⟩) := by
  unfold Told RowReport.toJson
  cases row.outcome e policy with
  | error message => exact ⟨rfl, rfl, rfl⟩
  | ok done => exact ⟨rfl, rfl, rfl, rfl⟩

theorem RowReport.member?_ok (r : RowReport) : r.toJson.member? "ok" = some (.boolean r.ok) := by
  unfold toJson ok
  cases r.outcome <;> rfl

namespace Command

theorem code_batch (rows : List Row) : (batch e rows).code =
    if 0 < (e.alone .strict rows).countP (fun r => !r.ok) then 1 else 0 := by
  rw [batch, e.fulfilRows_eq]

theorem failed_iff (rows : List Row) :
    (batch e rows).code = 1 ↔ ∃ r ∈ e.alone .strict rows, r.ok = false := by
  have hcount : 0 < (e.alone .strict rows).countP (fun r => !r.ok) ↔
      ∃ r ∈ e.alone .strict rows, r.ok = false := by
    simp only [List.countP_pos_iff, Bool.not_eq_true']
  rw [code_batch, ← hcount]
  split
  · exact iff_of_true rfl ‹_›
  · exact iff_of_false nofun ‹_›

/-- The report on a table has one entry for each row, in the order of the rows. Each tells the
number of its row and what comes of this row by itself: why it is no order, or else why its order
leads to nothing, or else the title and the warnings of its record. The other rows do not matter.
The command fails if an entry is not ok, and only then. -/
theorem batch_aligned (rows : List Row) :
    ∃ entries, (batch e rows).out = pretty (.list entries) ∧ entries.length = rows.length ∧
      (∀ (i : ℕ) (row : Row), rows[i]? = some row →
        ∃ entry, entries[i]? = some entry ∧ row.Told e .strict i entry) ∧
      (∀ (others : List Row) (i j : ℕ), rows[i]? = others[j]? →
        (e.fulfilRows .strict rows)[i]?.map RowReport.outcome =
          (e.fulfilRows .strict others)[j]?.map RowReport.outcome) ∧
      ((batch e rows).code = 1 ↔ ∃ entry ∈ entries, entry.member? "ok" = some (.boolean false)) ∧
      (batch e rows).code ≤ 1 := by
  refine ⟨(e.alone .strict rows).map RowReport.toJson, ?_, ?_, fun i row hrow => ?_,
    fun others i j hsame => ?_, ?_, ?_⟩
  · rw [batch, e.fulfilRows_eq]
  · rw [List.length_map, Engine.alone, List.length_map, List.length_zipIdx]
  · refine ⟨_, ?_, row.told_toJson e .strict i⟩
    rw [List.getElem?_map, e.getElem?_alone, hrow]
    rfl
  · rw [e.fulfilRows_eq, e.fulfilRows_eq, e.getElem?_alone, e.getElem?_alone, hsame, Option.map_map,
      Option.map_map]
    rfl
  · rw [failed_iff]
    simp only [List.mem_map, exists_exists_and_eq_and, RowReport.member?_ok, Option.some.injEq,
      Json.boolean.injEq]
  · rw [code_batch]
    split <;> decide

/-- a row without a title between two others -/
def mixedRows : List Row :=
  [{ title := "Circle", templateId := some "circle" }, { title := " " },
   { title := "Scale", mode := some "custom" }]

theorem batch_aligned_mixed : mixedRows[1]? = some { title := " " } ∧
    ∃ entries, (batch {} mixedRows).out = pretty (.list entries) ∧ entries.length = 3 ∧
      (∃ entry, entries[1]? = some entry ∧ entry.member? "row" = some (.integer 1) ∧
        entry.member? "error" = some (.text "row is missing a title")) ∧
      (batch {} mixedRows).code = 1 := by
  have houtcome : Row.outcome {} .strict { title := " " } = .error "row is missing a title" := rfl
  obtain ⟨entries, hout, hlength, hrows, -, hcode, -⟩ := batch_aligned {} mixedRows
  obtain ⟨entry, hentry, hnumber, htold⟩ := hrows 1 { title := " " } rfl
  rw [houtcome] at htold
  exact ⟨rfl, entries, hout, hlength, ⟨entry, hentry, hnumber, htold.2⟩,
    hcode.mpr ⟨entry, List.mem_of_getElem? hentry, htold.1⟩⟩

end Command

end Figures
