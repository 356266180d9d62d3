import Figures.Param.Check
import Figures.Request.Basic

/-!
# Checking requests

* `Request.checkSource`   what the mode asks for is there
* `Request.checkAlt`      a picture has a text that stands in for it
* `Request.check`         both, and the parameters against a schema if there is one
-/

namespace Figures

namespace Request

/-- a blueprint must be there, and should have layers -/
def checkBlueprint (r : Request) : Diagnosis :=
  match r.custom with
  | none => .error "custom blueprint is required for mode \"custom\""
  | some b => if b.layers.isEmpty then .warning "Custom blueprint has no layers" else {}

/-- what the mode asks for must be there -/
def checkSource (r : Request) : Diagnosis :=
  if r.mode == .asset then
    if (Text.nonBlank? r.diagramId).isNone then .error "diagramId is required for mode \"asset\""
    else {}
  else if r.usesBlueprint then r.checkBlueprint
  else if r.template?.isNone then .error s!"templateId is required for mode \"{r.mode.name}\""
  else {}

/-- a picture should have a text that stands in for it -/
def checkAlt (r : Request) : Diagnosis :=
  if r.isRenderable && (Text.nonBlank? r.alt).isNone then .warning "Alt text is missing" else {}

/-- the request without its parameters, and then these against a schema -/
def check (r : Request) (schema : Option Schema) (policy : Policy) : Diagnosis :=
  let own := r.checkSource ++ r.checkAlt
  match schema with
  | some s => own ++ (r.params.merge s).check s policy
  | none => own

end Request

end Figures
