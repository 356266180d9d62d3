import Figures.Order.Basic

/-!
# Rows of a table of orders

* `Row`            an order as a row of a table: every column a text, the parameters apart
* `RowError`       why a row is no order
* `Row.order`      the order of a row: columns trimmed, blank ones absent, names of figures replaced
                   by the ids of their templates
* `Batch`          rows sorted into reports on those that are no orders, and the orders of the
                   others
* `Engine.fulfilRows`   the orders carried out, and all reports in the order of their rows
-/

namespace Figures

structure Row where
  title : String := ""
  templateId : Option String := none
  mode : Option String := none
  placement : Option String := none
  caption : Option String := none
  alt : Option String := none
  subjectId : Option String := none
  tags : Option String := none
  params : Option Params := none
  deriving Inhabited

inductive RowError where
  | missingTitle
  | unknownMode (name : String)
  | unsupportedMode (mode : Mode)
  deriving Repr, DecidableEq

def RowError.message : RowError → String
  | missingTitle => "row is missing a title"
  | unknownMode name => s!"unknown mode \"{name}\""
  | unsupportedMode mode => s!"mode \"{mode.name}\" cannot be imported"

namespace Row

/-- the mode in a column: auto if it is blank. A blueprint does not fit into a row -/
def modeOf (column : Option String) : Except RowError Mode :=
  match Text.nonBlank? column with
  | none => .ok .auto
  | some name =>
    match Mode.ofText? name with
    | none => .error (.unknownMode name)
    | some .custom => .error (.unsupportedMode .custom)
    | some mode => .ok mode

/-- the id of a template in a column, which may name a kind of figure instead -/
def templateOf (column : Option String) : Option String :=
  (Text.nonBlank? column).map fun id =>
    match FigureKind.ofName? id with
    | some kind => kind.templateId
    | none => id

def order (row : Row) : Except RowError Order :=
  let title := Text.trim row.title
  if title.isEmpty then .error .missingTitle
  else do
    let mode ← modeOf row.mode
    .ok {
      title
      request := {
        mode
        templateId := templateOf row.templateId
        params := row.params.getD {}
        placement := Text.nonBlank? row.placement
        caption := Text.nonBlank? row.caption
        alt := Text.nonBlank? row.alt }
      subjectId := Text.nonBlank? row.subjectId
      tags := Text.entries (row.tags.getD "") }

def toJson (row : Row) : Json :=
  .object <|
    [("title", .text row.title)] ++
    Json.given "templateId" .text row.templateId ++
    Json.given "mode" .text row.mode ++
    Json.given "placement" .text row.placement ++
    Json.given "caption" .text row.caption ++
    Json.given "alt" .text row.alt ++
    Json.given "subjectId" .text row.subjectId ++
    Json.given "tags" .text row.tags ++
    Json.given "params" Params.toJson row.params

def decoder : Decoder Row :=
  let optionalText := Decoder.optional Decoder.text
  Decoder.record "ImportRow"
    [.of "title" Decoder.text fun v r => { r with title := v },
     .of "templateId" optionalText fun v r => { r with templateId := v },
     .of "mode" optionalText fun v r => { r with mode := v },
     .of "placement" optionalText fun v r => { r with placement := v },
     .of "caption" optionalText fun v r => { r with caption := v },
     .of "alt" optionalText fun v r => { r with alt := v },
     .of "subjectId" optionalText fun v r => { r with subjectId := v },
     .of "tags" optionalText fun v r => { r with tags := v },
     .of "params" (Decoder.optional Params.decoder) fun v r => { r with params := v }]
    ({} : Row) fun _ r => .ok r

end Row

/-- what came of a row: a title and warnings, or an error -/
structure RowReport where
  row : Nat
  outcome : Except String (String × List String)

namespace RowReport

def ok (r : RowReport) : Bool := r.outcome.isOk

def toJson (r : RowReport) : Json :=
  match r.outcome with
  | .ok (title, warnings) =>
    .object
      [("ok", .boolean true), ("row", .integer r.row), ("title", .text title),
       ("warnings", .list (warnings.map .text))]
  | .error message =>
    .object [("error", .text message), ("ok", .boolean false), ("row", .integer r.row)]

def ofRecord (row : Nat) : Except OrderError Record → RowReport
  | .ok record => ⟨row, .ok (record.title, record.warnings)⟩
  | .error err => ⟨row, .error err.message⟩

end RowReport

/-- rows sorted: the reports on those that are no orders, and the orders of the others with the
numbers of their rows -/
structure Batch where
  reports : List RowReport := []
  positions : List Nat := []
  orders : List Order := []
  aligned : positions.length = orders.length := by rfl

namespace Batch

def add (b : Batch) (order : Except RowError Order) (row : Nat) : Batch :=
  match order with
  | .ok order =>
    { b with
      positions := b.positions ++ [row]
      orders := b.orders ++ [order]
      aligned := by rw [List.length_append, List.length_append, b.aligned]; rfl }
  | .error err => { b with reports := b.reports ++ [⟨row, .error err.message⟩] }

/-- the rows of a table, numbered from the first one on -/
def ofRows (rows : List Row) : Batch :=
  rows.zipIdx.foldl (fun b r => b.add r.1.order r.2) {}

end Batch

namespace Engine

/-- all reports on a batch: first those on rows that are no orders, then those on the orders -/
def reports [Platform] (e : Engine) (policy : Policy) (b : Batch) : List RowReport :=
  b.reports ++
    (b.positions.zip (e.fulfilAll policy b.orders)).map fun r => RowReport.ofRecord r.1 r.2

def fulfilRows [Platform] (e : Engine) (policy : Policy) (rows : List Row) : List RowReport :=
  (e.reports policy (Batch.ofRows rows)).mergeSort fun a b => a.row ≤ b.row

end Engine

end Figures
