import Figures.Dict
import Figures.Number.Reading
import Figures.Text.Blank
import Figures.Toml.Document

/-!
# Palettes

* `Palette`             named style tokens: colours, stroke widths, radii, font sizes
* `Palette.standard`    the palette used where none is given, and for tokens that another one lacks
* `Palette.token`       a token's value, with a last resort for unknown names
* `Palette.number`      a token as a number
* `Palette.styleBlock`  the style rules that every drawing carries
* `Palette.ofText?`     the palette of a configuration file
-/

namespace Figures

/-- style tokens with their values -/
structure Palette where
  name : Option String
  description : Option String
  tokens : Dict String

namespace Palette

def standard : Palette where
  name := some "default"
  description := none
  tokens := Dict.ofList
    [("font-family", "Arial, Helvetica, sans-serif"),
     ("line", "#1f2937"), ("line-width", "2"),
     ("point", "#111827"), ("point-radius", "4"),
     ("hidden", "#9ca3af"),
     ("text", "#111827"), ("text-size", "18"),
     ("side-text", "#2563eb"), ("side-text-size", "15"),
     ("angle-text", "#dc2626"), ("angle-text-size", "14"),
     ("arc", "#dc2626"), ("arc-width", "1.5"),
     ("right-angle", "#374151"), ("equal-mark", "#374151"), ("mark-width", "1.5"),
     ("face", "#dbeafe"), ("face-shade", "#bfdbfe"), ("bar", "#60a5fa"),
     ("axis", "#374151"), ("grid", "#e5e7eb")]

/-- the value of a token that no palette knows, by the end of its name -/
def lastResort (token : String) : String :=
  let ends (tail : String) : Bool := tail.toList.isSuffixOf token.toList
  if ends "-width" || ends "-radius" then "1"
  else if ends "-size" then "14"
  else "#333333"

/-- the value of a token: the palette's own, else the standard one, else a last resort -/
def token (p : Palette) (name : String) : String :=
  match p.tokens.get? name <|> standard.tokens.get? name with
  | some value => value
  | none => lastResort name

/-- a token as a number; one if its value is none -/
def number (p : Palette) (name : String) : Float :=
  (readNumber? (Text.trim (p.token name))).getD 1.0

def rule (cls : String) (body : String) : String :=
  "." ++ cls ++ " \x7b " ++ body ++ " \x7d"

def strokeOnly (colour width : String) : String :=
  s!"stroke: {colour}; stroke-width: {width}; fill: none;"

def font (family size colour : String) : String :=
  s!"font-family: {family}; font-size: {size}px; fill: {colour};"

/-- the rules of the shared classes, one a line -/
def styleBlock (p : Palette) : String :=
  let t := p.token
  let family := t "font-family"
  "\n".intercalate
    [rule "diagram-line"
      (strokeOnly (t "line") (t "line-width") ++ " stroke-linecap: round; stroke-linejoin: round;"),
     rule "diagram-hidden" ("stroke: " ++ t "hidden" ++ "; stroke-dasharray: 6 4;"),
     rule "diagram-point" ("fill: " ++ t "point" ++ "; stroke: none;"),
     rule "diagram-text" (font family (t "text-size") (t "text") ++ " font-weight: 600;"),
     rule "diagram-text-side" (font family (t "side-text-size") (t "side-text")),
     rule "diagram-text-angle" (font family (t "angle-text-size") (t "angle-text")),
     rule "diagram-arc" (strokeOnly (t "arc") (t "arc-width")),
     rule "diagram-right-angle" (strokeOnly (t "right-angle") (t "mark-width")),
     rule "diagram-equal-mark" (strokeOnly (t "equal-mark") (t "mark-width")),
     rule "diagram-face"
      ("fill: " ++ t "face" ++ "; stroke: " ++ t "line" ++ "; stroke-width: " ++ t "line-width" ++
        "; stroke-linejoin: round;"),
     rule "diagram-bar" ("fill: " ++ t "bar" ++ "; stroke: " ++ t "line" ++ "; stroke-width: 1;"),
     rule "diagram-axis" (strokeOnly (t "axis") "1.5"),
     rule "diagram-grid" (strokeOnly (t "grid") "1")]

/-! ### configuration files -/

def textOf? : Toml.Value → Option String
  | .text s => some s
  | _ => none

/-- the entries of a table, however it is written; a value in it that is a table itself is kept -/
def tableOf? : Toml.Node → Option (List (String × Toml.Node))
  | .table _ _ entries => some entries
  | .value (.table entries) => some (entries.map fun e => (e.1, .value e.2))
  | _ => none

def nodeText? : Toml.Node → Option String
  | .value v => textOf? v
  | _ => none

def optionalText? (entries : List (String × Toml.Node)) (key : String) : Option (Option String) :=
  match entries.lookup key with
  | none => some none
  | some node => (nodeText? node).map some

/-- the palette of a configuration file: a table `palette` of texts, and a table `metadata` that may
name and describe it -/
def ofText? (s : String) : Option Palette := do
  let root ← Toml.read? s
  let (name, description) ← match root.lookup "metadata" with
    | none => some (none, none)
    | some node => do
      let entries ← tableOf? node
      let name ← optionalText? entries "name"
      let description ← optionalText? entries "description"
      some (name, description)
  let tokens ← root.lookup "palette" >>= tableOf?
  let texts ← tokens.mapM fun e => (nodeText? e.2).map fun s => (e.1, s)
  some ⟨name, description, Dict.ofList texts⟩

end Palette

end Figures
