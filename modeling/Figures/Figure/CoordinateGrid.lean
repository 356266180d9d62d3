import Figures.Template.Basic

/-!
# The coordinate grid

* `Frame`            the map from grid units to the canvas
* `plot`             what becomes of one position: a dot with its label, or a warning
* `coordinateGrid`   the figure: grid, axes, and every position of the parameters
-/

namespace Figures

namespace CoordinateGrid

variable [Numerals] [Platform]

def size : Float := 480.0
def margin : Float := 40.0
def tickLimit : Nat := 41

def schema : Schema :=
  (({} : Schema)
    |>.label "P" { preset := some "P", maxLength := some 3 }
    |>.label "xAxis" { preset := some "x", maxLength := some 3 }
    |>.label "yAxis" { preset := some "y", maxLength := some 3 }
    |>.value "xMin" (ValueSpec.number (-5.0) |>.range (-100.0) 0.0)
    |>.value "xMax" (ValueSpec.number 5.0 |>.range 0.0 100.0)
    |>.value "yMin" (ValueSpec.number (-5.0) |>.range (-100.0) 0.0)
    |>.value "yMax" (ValueSpec.number 5.0 |>.range 0.0 100.0)
    |>.value "step" (ValueSpec.number 1.0 |>.range 0.1 50.0)
    |>.position "P" { preset := some ⟨2.0, 3.0⟩ }
    |>.flag "showGrid" true
    |>.flag "showAxes" true
    |>.flag "showTickLabels" true
    |>.flag "showCoordinates" true)

/-- the part of the plane that is shown -/
structure Frame where
  xMin : Float
  xMax : Float
  yMin : Float
  yMax : Float

namespace Frame

/-- the place of grid coordinates on the canvas -/
def place (f : Frame) (x y : Float) : Point :=
  let inner := size - 2.0 * margin
  ⟨margin + (x - f.xMin) * (inner / (f.xMax - f.xMin)),
   margin + (f.yMax - y) * (inner / (f.yMax - f.yMin))⟩

/-- a point that is not inside, edges included -/
def excludes (f : Frame) (p : Point) : Bool :=
  p.x < f.xMin || f.xMax < p.x || p.y < f.yMin || f.yMax < p.y

/-- where the axes cross: at zero, or at the edge next to it -/
def crossing (f : Frame) : Point := ⟨clamp f.xMin f.xMax 0.0, clamp f.yMin f.yMax 0.0⟩

end Frame

def gridLines (pen : Pen) (f : Frame) (xs ys : List Float) : Drawing :=
  (xs.flatMap fun x =>
    pen.rule ("grid-x" ++ tidy 2 x) (f.place x f.yMin) (f.place x f.yMax) Cls.grid) ++
  (ys.flatMap fun y =>
    pen.rule ("grid-y" ++ tidy 2 y) (f.place f.xMin y) (f.place f.xMax y) Cls.grid)

/-- the number at each tick, except where the axes cross -/
def tickLabels (pen : Pen) (f : Frame) (xs ys : List Float) : Drawing :=
  let o := f.crossing
  ((xs.filter (· != o.x)).flatMap fun x =>
    pen.text ("tick-x" ++ tidy 2 x) (tidy 2 x) ((f.place x o.y).shift 0.0 14.0) .middle
      Cls.sideText) ++
  ((ys.filter (· != o.y)).flatMap fun y =>
    let p := f.place o.x y
    pen.text ("tick-y" ++ tidy 2 y) (tidy 2 y) ⟨p.x - 8.0, p.y⟩ .finish Cls.sideText)

def axes (params : Params) (pen : Pen) (f : Frame) : Drawing :=
  let o := f.crossing
  let xEnd := f.place f.xMax o.y
  let yEnd := f.place o.x f.yMax
  pen.rule "x-axis" (f.place f.xMin o.y) xEnd Cls.axis ++
    pen.rule "y-axis" (f.place o.x f.yMin) yEnd Cls.axis ++
    pen.text "x-axis" (params.label "xAxis") ⟨xEnd.x + 14.0, xEnd.y⟩ .start Cls.text ++
    pen.text "y-axis" (params.label "yAxis") ⟨yEnd.x, yEnd.y - 16.0⟩ .middle Cls.text

def pairText (p : Point) : String := "(" ++ tidy 2 p.x ++ ", " ++ tidy 2 p.y ++ ")"

/-- the text beside a plotted point: its label, or else its name, and perhaps its coordinates -/
def plotText (params : Params) (name : String) (p : Point) : String :=
  let label := (params.labels.get? name).getD name
  if params.visible "showCoordinates" then label ++ pairText p else label

/-- a position as a drawing, or as a warning if it has no place on the grid -/
def plot (params : Params) (pen : Pen) (f : Frame) (name : String) (given : Position) :
    Drawing × List String :=
  match given.point? with
  | none => ([], [s!"Point {name} has no numeric coordinates and was skipped"])
  | some p =>
    if f.excludes p then ([], [s!"Point {name} {pairText p} lies outside the grid"])
    else
      let q := f.place p.x p.y
      (pen.dot name q ++
        pen.text name (plotText params name p) ⟨q.x + 8.0, q.y - 14.0⟩ .start Cls.text, [])

def scene (params : Params) (pen : Pen) : Except TemplateError Scene := do
  let xMin ← params.required "xMin"
  let xMax ← params.required "xMax"
  let yMin ← params.required "yMin"
  let yMax ← params.required "yMax"
  let step ← params.positive "step"
  if xMax ≤ xMin then throw (.invalid "xMax" "must be greater than xMin")
  if yMax ≤ yMin then throw (.invalid "yMax" "must be greater than yMin")
  let some xs := Template.ticks xMin xMax step tickLimit
    | throw (.invalid "step" s!"too small for the range (at most {tickLimit} ticks)")
  let some ys := Template.ticks yMin yMax step tickLimit
    | throw (.invalid "step" s!"too small for the range (at most {tickLimit} ticks)")
  let f : Frame := ⟨xMin, xMax, yMin, yMax⟩
  let plots := params.positions.entries.map fun e => plot params pen f e.1 e.2
  return {
    width := size, height := size, root := "coordinate-grid",
    drawing :=
      Drawing.when (params.visible "showGrid") (Pen.group "grid" (gridLines pen f xs ys)) ++
      Drawing.when (params.visible "showAxes")
        (Pen.group "axes"
          (axes params pen f ++
            Drawing.when (params.visible "showTickLabels") (tickLabels pen f xs ys))) ++
      Pen.group "points" (plots.flatMap Prod.fst),
    warnings := plots.flatMap Prod.snd }

end CoordinateGrid

def coordinateGrid [Numerals] [Platform] : Template :=
  .ofScene "math.graphs.coordinate_point.v1" "Coordinate point" "graphs" CoordinateGrid.schema
    CoordinateGrid.scene

end Figures
