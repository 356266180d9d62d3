import Figures.Blueprint.Issue
import Figures.Command.Invocation
import Figures.Command.LogFormat
import Figures.Order.Row

/-!
# Running a command line

* `Surroundings`   what a command sees: files, standard input, variables
* `Reply`          what it leaves: an exit code and two texts
* `run`            the reply to a command line

A command line that is not well formed is answered with code 2 and a line on usage.
-/

namespace Figures.Command

/-- what a command sees. A file that cannot be read is given by the reason -/
structure Surroundings where
  file : String → Except String String
  input : Except String String
  setting : String → Option String

structure Reply where
  code : Nat := 0
  out : String := ""
  err : String := ""
  deriving Repr, DecidableEq

namespace Reply

def failure (line : String) : Reply := { code := 1, err := line ++ "\n" }

def lines (ls : List String) : String := String.join (ls.map (· ++ "\n"))

end Reply

/-- the reply to a command line that is not well formed -/
def Reply.usage : Reply :=
  { code := 2, err := "Usage: figures [OPTIONS] <render|validate|templates|types|batch> [ARGS]\n" }

/-- the format of the log is one of the known ones -/
def checkLog (s : Surroundings) (i : Invocation) : Except Reply Unit :=
  let name := (i.logFormat <|> s.setting "DIAGRAM_ENGINE_LOG_FORMAT").getD LogFormat.compact.name
  match LogFormat.ofText? name with
  | some _ => .ok ()
  | none =>
    .error <| .failure <|
      "Error initializing logging: Invalid log format: " ++ LogFormat.unknownMessage name

def paletteOf (s : Surroundings) (path : String) : Except String Palette :=
  match s.file path with
  | .error reason => .error ("Failed to read palette file: " ++ reason)
  | .ok content =>
    match Palette.ofText? content with
    | some palette => .ok palette
    | none => .error "Failed to parse palette TOML: the text is not a palette"

def loadPalette (s : Surroundings) (i : Invocation) : Except Reply Palette :=
  match i.palette with
  | none => .ok .standard
  | some path =>
    (paletteOf s path).mapError fun reason =>
      .failure s!"Error loading palette '{path}': {reason}"

/-- the text of a file, or of standard input -/
def source (s : Surroundings) : Option String → Except Reply String
  | some path =>
    (s.file path).mapError fun reason => .failure s!"Error reading file '{path}': {reason}"
  | none => s.input.mapError fun reason => .failure s!"Error reading from stdin: {reason}"

def readAs (d : Decoder α) (s : Surroundings) (input : Option String) : Except Reply α := do
  let content ← source s input
  (Decoder.ofText d content).mapError fun e => .failure ("Error parsing JSON: " ++ e.message)

def pretty (v : Json) : String := v.pretty ++ "\n"

/-- the image of a request in some form, its warnings aside -/
def render (e : Engine) (form : Form) (r : Request) : Reply :=
  let image := e.render r
  let warnings := Reply.lines (image.warnings.map ("warning: " ++ ·))
  if form = .document then { out := pretty image.toJson, err := warnings }
  else if image.isBlank then { code := 1, err := warnings ++ "Error: nothing was rendered\n" }
  else if form = .address then { out := image.dataUri?.getD "" ++ "\n", err := warnings }
  else { out := image.svg ++ "\n", err := warnings }

/-- the diagnosis of a request, and pictures of its malformed formulas -/
def validate (e : Engine) (r : Request) : Reply :=
  let diagnosis := e.validate r
  let issues := (r.custom.map Blueprint.issues).getD []
  { code := if diagnosis.ok && issues.isEmpty then 0 else 1
    out := pretty diagnosis.toJson
    err := Reply.lines (issues.map Issue.report) }

def templates (e : Engine) (category : Option String) : Reply :=
  let ts := match category with
    | some c => e.gallery.byCategory c
    | none => e.gallery.all
  { out := Reply.lines (ts.map fun t =>
      Text.padRight 40 t.id ++ " " ++ Text.padRight 12 t.category ++ " " ++ t.title) }

def types : Reply :=
  { out := Reply.lines (FigureKind.all.map fun k =>
      Text.padRight 16 k.name ++ " " ++ k.templateId) }

def batch (e : Engine) (rows : List Row) : Reply :=
  let report := e.fulfilRows .strict rows
  let failed := report.countP fun r => !r.ok
  { code := if 0 < failed then 1 else 0
    out := pretty (.list (report.map RowReport.toJson)) }

def perform (e : Engine) (s : Surroundings) : Task → Except Reply Reply
  | .render input form => (readAs Request.decoder s input).map (render e form)
  | .validate input => (readAs Request.decoder s input).map (validate e)
  | .templates category => .ok (templates e category)
  | .types => .ok types
  | .batch input => (readAs (Decoder.list Row.decoder) s (some input)).map (batch e)

/-- an invocation carried out: the log and the palette are looked at before the task -/
def runInvocation (s : Surroundings) (i : Invocation) : Except Reply Reply := do
  checkLog s i
  let palette ← loadPalette s i
  let engine : Engine :=
    { context := { palette }, policy := if i.strict then .strict else .lenient }
  perform engine s i.task

def run (s : Surroundings) (args : List String) : Reply :=
  match Invocation.read? args with
  | none => .usage
  | some i =>
    match runInvocation s i with
    | .ok reply => reply
    | .error reply => reply

end Figures.Command
