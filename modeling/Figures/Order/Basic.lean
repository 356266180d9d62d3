import Figures.Engine

/-!
# Orders

* `Order`            a titled request, with a subject and tags
* `Record`           what an order leads to: the request with its image and all warnings
* `OrderError`       why an order leads to nothing
* `Engine.fulfil`    one order carried out
* `Engine.fulfilAll` each of several orders on its own
-/

namespace Figures

structure Order where
  title : String
  request : Request
  subjectId : Option String := none
  tags : List String := []
  deriving Inhabited

/-- a fulfilled order. There is no image for a stored asset -/
structure Record where
  title : String
  request : Request
  subjectId : Option String
  tags : List String
  image : Option Image
  warnings : List String

/-- why an order leads to nothing -/
inductive OrderError where
  | missingTitle
  | invalidRequest (errors : List String)
  | renderFailed (warnings : List String)
  deriving Repr, DecidableEq

def OrderError.message : OrderError → String
  | missingTitle => "title is required"
  | invalidRequest errors => "invalid metadata: " ++ Text.join "; " errors
  | renderFailed warnings => "render failed: " ++ Text.join "; " warnings

namespace Engine

variable [Platform] (e : Engine)

/-- what is wrong with a request that is to be drawn by this engine -/
def checkRequest (policy : Policy) (r : Request) : Diagnosis :=
  if !r.mode.bearsTemplate || r.usesBlueprint then r.check none policy
  else match r.template? with
    | none => r.check none policy
    | some id =>
      match e.gallery.get? id with
      | some t => r.check (some t.schema) policy
      | none => r.check none policy ++ .error (notFound id)

/-- the image of an order, unless it asks for a stored asset -/
def imageOf (r : Request) : Except OrderError (Option Image) :=
  if r.isRenderable then
    let image := e.render r
    if image.isBlank then .error (.renderFailed image.warnings) else .ok (some image)
  else .ok none

/-- an order carried out: title, request and image are checked in this order -/
def fulfil (policy : Policy) (order : Order) : Except OrderError Record :=
  let title := Text.trim order.title
  if title.isEmpty then .error .missingTitle
  else
    let diagnosis := e.checkRequest policy order.request
    if diagnosis.ok then do
      let image ← e.imageOf order.request
      .ok ⟨title, order.request, order.subjectId, order.tags, image,
        diagnosis.warnings ++ (image.map Image.warnings).getD []⟩
    else .error (.invalidRequest diagnosis.errors)

def fulfilAll (policy : Policy) (orders : List Order) : List (Except OrderError Record) :=
  orders.map (e.fulfil policy)

end Engine

namespace Order

def toJson (o : Order) : Json :=
  .object <|
    [("title", .text o.title), ("metadata", o.request.toJson)] ++
    Json.given "subjectId" .text o.subjectId ++
    [("tags", .list (o.tags.map .text))]

structure Parts where
  title : Option String := none
  request : Option Request := none
  subjectId : Option String := none
  tags : List String := []

def decoder : Decoder Order :=
  Decoder.record "CreationSpec"
    [.of "title" Decoder.text fun v p => { p with title := some v },
     .of "metadata" Request.decoder fun v p => { p with request := some v },
     .of "subjectId" (Decoder.optional Decoder.text) fun v p => { p with subjectId := v },
     .of "tags" (Decoder.list Decoder.text) fun v p => { p with tags := v }]
    ({} : Parts) fun missing p => do
      let title ← Decoder.require missing 0 "title" p.title
      let request ← Decoder.require missing 1 "metadata" p.request
      .ok ⟨title, request, p.subjectId, p.tags⟩

end Order

namespace Record

/-- a record as a document; `withImage` says whether its image is part of it -/
def toJson (r : Record) (withImage : Bool) : Json :=
  .object <|
    [("title", .text r.title), ("metadata", r.request.toJson)] ++
    Json.given "subjectId" .text r.subjectId ++
    [("tags", .list (r.tags.map .text))] ++
    Json.given "render" Image.toJson (if withImage then r.image else none) ++
    [("warnings", .list (r.warnings.map .text))]

end Record

end Figures
