/-!
The kinds of charts. A scatter chart is laid over three fields, any other chart over one.
-/

namespace LinkedViews

inductive ChartKind where
  | timeChart
  | rowChart
  | barChart
  | lineChart
  | scatterPlot
  | scatterPlotTime
  | pieChart
deriving DecidableEq, Repr

namespace ChartKind

def all : List ChartKind :=
  [timeChart, rowChart, barChart, lineChart, scatterPlot, scatterPlotTime, pieChart]

def name : ChartKind → String
  | timeChart => "TimeChart"
  | rowChart => "RowChart"
  | barChart => "BarChart"
  | lineChart => "LineChart"
  | scatterPlot => "ScatterPlot"
  | scatterPlotTime => "ScatterPlotTime"
  | pieChart => "PieChart"

def ofName? (name : String) : Option ChartKind := all.find? fun kind => kind.name = name

def isScatter : ChartKind → Bool
  | scatterPlot => true
  | scatterPlotTime => true
  | _ => false

def arity (kind : ChartKind) : Nat := if kind.isScatter then 3 else 1

end ChartKind

end LinkedViews
