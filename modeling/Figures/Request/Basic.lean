import Figures.Blueprint.Basic
import Figures.Param.Basic

/-!
# Requests

* `Mode`             where the picture of a request comes from
* `Request`          what is asked for: a mode, ids, parameters, a blueprint, and texts about the
                     picture
* `Request.template?`       the id of the template, unless it is blank
* `Request.usesBlueprint`   the picture is drawn from the request's own blueprint
-/

namespace Figures

/-- where a picture comes from: a stored asset, a template, a template or a blueprint, a
blueprint -/
inductive Mode where
  | asset
  | template
  | auto
  | custom
  deriving Repr, DecidableEq, Inhabited

namespace Mode

def all : List Mode := [asset, template, auto, custom]

def name : Mode → String
  | asset => "asset"
  | template => "template"
  | auto => "auto"
  | custom => "custom"

def bearsTemplate : Mode → Bool
  | template | auto => true
  | _ => false

/-- the mode of a name; blanks around it and the case of its letters do not count -/
def ofText? (s : String) : Option Mode :=
  let name := Text.lower (Text.trim s)
  all.find? fun m => m.name == name

def unknownMessage (s : String) : String := "Unknown diagram mode: " ++ s

def table : List (String × Mode) := all.map fun m => (m.name, m)

end Mode

structure Request where
  mode : Mode := .auto
  templateId : Option String := none
  diagramId : Option String := none
  params : Params := {}
  custom : Option Blueprint := none
  placement : Option String := none
  caption : Option String := none
  alt : Option String := none
  deriving Inhabited

/-- a member of an object, unless it is absent -/
def Json.given (key : String) (f : α → Json) (v : Option α) : List (String × Json) :=
  (v.map fun x => (key, f x)).toList

namespace Request

def ofTemplate (id : String) : Request := { mode := .template, templateId := some id }

/-- a request for a template that leaves the mode open -/
def ofAuto (id : String) : Request := { mode := .auto, templateId := some id }

def ofBlueprint (b : Blueprint) : Request := { mode := .custom, custom := some b }

def ofAsset (id : String) : Request := { mode := .asset, diagramId := some id }

/-- the id of the template without blanks around it; a blank one counts as absent -/
def template? (r : Request) : Option String := Text.nonBlank? r.templateId

/-- there is something to draw -/
def isRenderable (r : Request) : Bool := r.mode != .asset

/-- the picture is drawn from the blueprint: always in mode custom, and in mode auto if there is a
blueprint and no template -/
def usesBlueprint (r : Request) : Bool :=
  match r.mode with
  | .custom => true
  | .auto => r.custom.isSome && r.template?.isNone
  | _ => false

def toJson (r : Request) : Json :=
  .object <|
    [("mode", .text r.mode.name)] ++
    Json.given "templateId" .text r.templateId ++
    Json.given "diagramId" .text r.diagramId ++
    [("params", r.params.toJson)] ++
    Json.given "custom" Blueprint.toJson r.custom ++
    Json.given "placement" .text r.placement ++
    Json.given "caption" .text r.caption ++
    Json.given "alt" .text r.alt

def decoder : Decoder Request :=
  let optionalText := Decoder.optional Decoder.text
  Decoder.record "DiagramMetadata"
    [.of "mode" (Decoder.variant Mode.table) fun v r => { r with mode := v },
     .of "templateId" optionalText fun v r => { r with templateId := v },
     .of "diagramId" optionalText fun v r => { r with diagramId := v },
     .of "params" Params.decoder fun v r => { r with params := v },
     .of "custom" (Decoder.optional Blueprint.decoder) fun v r => { r with custom := v },
     .of "placement" optionalText fun v r => { r with placement := v },
     .of "caption" optionalText fun v r => { r with caption := v },
     .of "alt" optionalText fun v r => { r with alt := v }]
    ({} : Request) fun _ r => .ok r

end Request

end Figures
