import Figures.Blueprint.Shape

/-!
# The image of a blueprint

* `Shape.emit`          a shape on a canvas, if its kind is known
* `Canvas.shape`        a shape with its warnings, the one of being skipped last
* `orderKey`            the total order of doubles, as whole numbers
* `Canvas.layers`       some layers, the shapes of each in a group
* `Blueprint.image`     the layers by ascending `z`, those with one `z` as declared, on one canvas
-/

namespace Figures

section
variable [Platform] (scope : Scope) (pen : Pen)

namespace Shape

def emit (name : String) (item : Shape) : Emitting Unit :=
  match ShapeKind.ofName? item.kind with
  | some kind => Subject.emit ⟨scope, name, item.fields⟩ pen kind
  | none => throw (.invalidField "type" s!"\"{item.kind}\" is not a known shape type")

def skipMessage (name kind : String) (e : ShapeError) : String :=
  s!"Shape \"{name}\" ({kind}) skipped: {e.message}"

end Shape

namespace Canvas

/-- a shape on the canvas, its notes as warnings, and the warning of being skipped if it fails -/
def shape (canvas : Canvas) (name : String) (item : Shape) : Canvas :=
  let (outcome, stage) := (item.emit scope pen name).run.run { canvas }
  let canvas := stage.canvas.warn (stage.notes.map (Note.message name))
  match outcome with
  | .ok () => canvas
  | .error e => canvas.warn [Shape.skipMessage name item.kind e]

def layer (canvas : Canvas) (layer : Layer) : Canvas :=
  (layer.named.foldl (fun canvas e => canvas.shape scope pen e.1 e.2)
    (canvas.put (Pen.groupStart layer.id))).put .groupEnd

def layers (canvas : Canvas) (layers : List Layer) : Canvas := layers.foldl (layer scope pen) canvas

end Canvas

end

/-- the place of a double in the total order: `-0` stands below `0` -/
def orderKey (x : Float) : Int :=
  let bits := x.toBits.toNat
  if bits < signBit then (bits : Int) else (signBit : Int) - 1 - bits

/-- `a` is drawn before or with `b` -/
def Layer.notAbove (a b : Layer) : Bool := orderKey a.z ≤ orderKey b.z

namespace Blueprint

def ordered (b : Blueprint) : List Layer := b.layers.mergeSort Layer.notAbove

def image [Platform] (b : Blueprint) (scope : Scope) (ctx : Context) : Image :=
  ((Canvas.start "blueprint").layers scope (Pen.of ctx) b.ordered).finish b.viewBox.width
    b.viewBox.height ctx

end Blueprint

end Figures
