import Figures.Blueprint.Image
import Figures.Figure.Kind
import Figures.Request.Check

/-!
# The engine

* `Engine`            a gallery, a context and a policy
* `Engine.resolve`    the template of a request, or why there is none
* `Engine.prepare`    the parameters that a template gets, and the diagnosis of them
* `Engine.validate`   the diagnosis of a request
* `Engine.render`     the image of a request

`render` always gives an image. Where nothing can be drawn it is blank, and its warnings say why.
-/

namespace Figures

structure Engine where
  gallery : Gallery := .standard
  context : Context := {}
  policy : Policy := .lenient

namespace Engine

def noBlueprint : String := "Custom diagram has no blueprint"

def notFound (id : String) : String := s!"Template \"{id}\" not found in engine registry"

variable [Platform] (e : Engine)

/-- the template of a request, or why there is none -/
def resolve (r : Request) : Except String Template :=
  if !r.mode.bearsTemplate then .error s!"Mode \"{r.mode.name}\" is not rendered by the engine"
  else match r.template? with
    | none => .error s!"No templateId provided for mode \"{r.mode.name}\""
    | some id =>
      match e.gallery.get? id with
      | none => .error (notFound id)
      | some t => .ok t

/-- parameters filled up with presets, and their diagnosis -/
def prepare (t : Template) (p : Params) : Params × Diagnosis :=
  let merged := p.merge t.schema
  (merged, merged.check t.schema e.policy)

/-- the parameters as the template gets them: under the lenient policy malformed switches are
settled -/
def settle (t : Template) (merged : Params) : Params :=
  match e.policy with
  | .lenient => merged.settleFlags t.schema
  | .strict => merged

def validateBlueprint (r : Request) : Diagnosis :=
  match r.custom with
  | none => .error noBlueprint
  | some b => if b.layers.isEmpty then .warning "Custom blueprint has no layers" else {}

/-- what is wrong with a request; nothing is drawn -/
def validate (r : Request) : Diagnosis :=
  if r.usesBlueprint then validateBlueprint r
  else match e.resolve r with
    | .error problem => .error problem
    | .ok t => (e.prepare t r.params).2

def renderBlueprint (r : Request) : Image :=
  match r.custom with
  | none => .blank [noBlueprint]
  | some b => b.image ⟨r.params.scope⟩ e.context

/-- what is reported for an outcome without an image -/
def renderError (reason : String) : String := "Render error: " ++ reason

/-- the image of an outcome behind the warnings that came up before it -/
def finish (warnings : List String) : Outcome → Image
  | .drawn image => image.withLeading warnings
  | .failed err => .blank (warnings ++ [renderError err.message])
  | .aborted reason => .blank (warnings ++ [renderError (reason.getD "render function panicked")])

def renderTemplate (t : Template) (p : Params) : Image :=
  let (merged, diagnosis) := e.prepare t p
  if diagnosis.ok then finish diagnosis.warnings (t.draw (e.settle t merged) e.context)
  else .blank (diagnosis.warnings ++ diagnosis.errors)

def render (r : Request) : Image :=
  if r.usesBlueprint then e.renderBlueprint r
  else match e.resolve r with
    | .error problem => .blank [problem]
    | .ok t => e.renderTemplate t r.params

end Engine

end Figures
