import Figures.Template.Basic

/-!
# The series circuit

* `SeriesCircuit.resistances`   the numbers of a `;`-separated list
* `seriesCircuit`               the figure: a loop with a cell below and the resistors on top
-/

namespace Figures

namespace SeriesCircuit

variable [Numerals] [Platform]

def width : Float := 560.0
def height : Float := 360.0
def left : Float := 80.0
def right : Float := 480.0
def top : Float := 90.0
def bottom : Float := 280.0
def resistorLength : Float := 60.0

def peaks : Nat := 6

def schema : Schema :=
  (({} : Schema)
    |>.label "cell" { maxLength := some 12 }
    |>.value "voltage" (ValueSpec.number 12.0 |>.range 0.1 1000.0 |>.needed)
    |>.value "resistors" (ValueSpec.text "4;6" |>.needed)
    |>.flag "showValues" true
    |>.flag "showCurrent" true)

/-- one resistance: a finite number above zero -/
def resistance (item : String) : Except TemplateError Float :=
  match (readNumber? item).filter fun r => 0.0 < r && r.isFinite with
  | some r => .ok r
  | none => .error (.invalid "resistors" s!"\"{item}\" is not a positive resistance")

def resistances (raw : String) : Except TemplateError (List Float) :=
  let items := Text.entries raw
  if items.isEmpty then .error (.invalid "resistors" "at least one resistor is required")
  else items.mapM resistance

def zigzag (p : Point) (length : Float) : Path :=
  let step := length / (Float.ofNat peaks + 1.0)
  let peak (i : Nat) : Segment :=
    .line ⟨p.x + step * Float.ofNat (i + 1), p.y + (if i % 2 = 0 then -10.0 else 10.0)⟩
  .move p :: (List.range peaks).map peak ++ [.line ⟨p.x + length, p.y⟩]

def startX (slot : Float) (i : Nat) : Float :=
  left + slot * Float.ofNat i + (slot - resistorLength) / 2.0

/-- where the wire before the `i`-th resistor starts -/
def wireStart (slot : Float) : Nat → Point
  | 0 => ⟨left, top⟩
  | i + 1 => ⟨startX slot i + resistorLength, top⟩

def resistor (params : Params) (pen : Pen) (slot r : Float) (i : Nat) : Drawing :=
  let x := startX slot i
  let name := s!"R{i + 1}"
  pen.segment s!"wire-top{i}" (wireStart slot i) ⟨x, top⟩ ++
    pen.path .path name (zigzag ⟨x, top⟩ resistorLength) Cls.line ++
    Drawing.when (params.visible "showValues")
      (pen.text name (name ++ " = " ++ tidy 2 r ++ " Ω") ⟨x + resistorLength / 2.0,
        top - 28.0⟩ .middle
        Cls.sideText)

/-- the cell in the lower wire; its long plate is the positive one -/
def cell (params : Params) (pen : Pen) (voltage : Float) : Drawing :=
  let middle := (left + right) / 2.0
  let label := params.label "cell"
  pen.segment "wire-bottom-right" ⟨right, bottom⟩ ⟨middle + 6.0, bottom⟩ ++
    pen.segment "cell-positive" ⟨middle - 6.0, bottom - 22.0⟩ ⟨middle - 6.0, bottom + 22.0⟩ ++
    pen.segment "cell-negative" ⟨middle + 6.0, bottom - 11.0⟩ ⟨middle + 6.0, bottom + 11.0⟩ ++
    pen.segment "wire-bottom-left" ⟨middle - 6.0, bottom⟩ ⟨left, bottom⟩ ++
    pen.text "cell" (if label.isEmpty then tidy 2 voltage ++ " V" else label)
      ⟨middle, bottom + 40.0⟩ .middle Cls.sideText

/-- the current: it leaves the positive plate and climbs the left wire -/
def currentMark (pen : Pen) (current : Float) : Drawing :=
  let middle := (top + bottom) / 2.0
  pen.polygon .mark "current" (arrowHead ⟨left, middle + 10.0⟩ ⟨left, middle - 10.0⟩ 12.0)
    Cls.point ++
    pen.text "current" ("I = " ++ tidy 2 current ++ " A") ⟨left + 16.0, middle⟩ .start Cls.sideText

def scene (params : Params) (pen : Pen) : Except TemplateError Scene := do
  let voltage ← params.positive "voltage"
  let rs ← resistances (params.text "resistors")
  let current := voltage / rs.foldl (· + ·) 0.0
  let span := right - left
  let each := resistorLength + 20.0
  if span < Float.ofNat rs.length * each then
    throw (.invalid "resistors"
      s!"at most {toCount word64 (span / each)} resistors fit in the loop")
  let slot := span / Float.ofNat rs.length
  return {
    width, height, root := "circuit",
    drawing :=
      Pen.group "resistors"
        ((rs.zipIdx.flatMap fun e => resistor params pen slot e.1 e.2) ++
          pen.segment "wire-top-end" (wireStart slot rs.length) ⟨right, top⟩) ++
      pen.segment "wire-right" ⟨right, top⟩ ⟨right, bottom⟩ ++
      Pen.group "cell" (cell params pen voltage) ++
      pen.segment "wire-left" ⟨left, bottom⟩ ⟨left, top⟩ ++
      Drawing.when (params.visible "showCurrent") (currentMark pen current) }

end SeriesCircuit

def seriesCircuit [Numerals] [Platform] : Template :=
  .ofScene "science.physics.circuit_series.v1" "Series circuit" "physics" SeriesCircuit.schema
    SeriesCircuit.scene

end Figures
