import Figures.Figure.Angle
import Figures.Figure.BarChart
import Figures.Figure.BoxPlot
import Figures.Figure.Circle
import Figures.Figure.CoordinateGrid
import Figures.Figure.Cuboid
import Figures.Figure.Cylinder
import Figures.Figure.NumberLine
import Figures.Figure.Rectangle
import Figures.Figure.SeriesCircuit
import Figures.Figure.Triangle
import Figures.Template.Gallery

/-!
# The kinds of figures

* `FigureKind`            the figures of this library, by names that do not change with their
                          versions
* `FigureKind.template`   the template that draws a kind
* `Gallery.standard`      the templates of all kinds
-/

namespace Figures

inductive FigureKind where
  | coordinateGrid
  | numberLine
  | triangle
  | rectangle
  | circle
  | angle
  | cuboid
  | cylinder
  | barChart
  | boxPlot
  | seriesCircuit
  deriving Repr, DecidableEq

namespace FigureKind

def all : List FigureKind :=
  [coordinateGrid, numberLine, triangle, rectangle, circle, angle, cuboid, cylinder, barChart,
   boxPlot, seriesCircuit]

def name : FigureKind → String
  | coordinateGrid => "coordinateGrid"
  | numberLine => "numberLine"
  | triangle => "triangle"
  | rectangle => "rectangle"
  | circle => "circle"
  | angle => "angle"
  | cuboid => "cuboid"
  | cylinder => "cylinder"
  | barChart => "barChart"
  | boxPlot => "boxPlot"
  | seriesCircuit => "seriesCircuit"

def template [Numerals] [Platform] : FigureKind → Template
  | coordinateGrid => Figures.coordinateGrid
  | numberLine => Figures.numberLine
  | triangle => Figures.triangle
  | rectangle => Figures.rectangle
  | circle => Figures.circle
  | angle => Figures.angle
  | cuboid => Figures.cuboid
  | cylinder => Figures.cylinder
  | barChart => Figures.barChart
  | boxPlot => Figures.boxPlot
  | seriesCircuit => Figures.seriesCircuit

def templateId (k : FigureKind) : String := k.template.id

def ofName? (s : String) : Option FigureKind := all.find? fun k => k.name == s

def ofTemplateId? (id : String) : Option FigureKind := all.find? fun k => k.templateId == id

/-- what is reported for a name that no kind has -/
def unknownMessage (s : String) : String := "Unknown diagram type: " ++ s

def table : List (String × FigureKind) := all.map fun k => (k.name, k)

def decoder : Decoder FigureKind := Decoder.variant table

end FigureKind

def Gallery.standard [Numerals] [Platform] : Gallery :=
    .ofList (FigureKind.all.map FigureKind.template)

end Figures
