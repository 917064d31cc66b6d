import LinkedViews.Chart.Basic
import LinkedViews.Script.Fragment
import LinkedViews.Script.Grouping
import LinkedViews.Script.IndexName
import LinkedViews.Script.Projection
import LinkedViews.Text.Html

/-!
Charts as programs: the parts that differ from chart to chart, and the script that is made of them.
-/

namespace LinkedViews

inductive Scale where
  | none
  /-- Linear in steps of one. -/
  | wholeNumbers
  | linear
  | time
deriving DecidableEq, Repr

inductive Setting where
  | elasticX
  | elasticY
  | renderArea
  | margins
  /-- Groups whose value is zero are not shown. -/
  | existenceFilter
  | categoryColors
  /-- The two numbers of a key are filtered by, its color is not. -/
  | pairFilter
deriving DecidableEq, Repr

structure Program where
  elementKey : String
  label : String
  index : IndexName
  projection : Projection
  grouping : Grouping
  /-- The field that is read from the first and the last record. -/
  probeField : String
  widget : String
  scale : Scale
  settings : List Setting
  size : ChartSize
  access : ValueAccess
deriving DecidableEq

namespace Scale

def script? : Scale → Option Script
  | none => Option.none
  | wholeNumbers =>
    some (Script.codeLines
      [".x(d3.scale.linear().domain([min, max]))", "    .xUnits(dc.units.integers)"])
  | linear => some (Script.code ".x(d3.scale.linear().domain([min, max]))")
  | time => some (Script.code ".x(d3.time.scale().domain([new Date(min), new Date(max)]))")

end Scale

namespace Setting

/-- The colors of the categories, as literals. -/
def colors : List String :=
  ["\"#ff2600\"", "\"#ffdd00\"", "\"#9dff00\"", "\"#00d4ff\"", "\"#1500ff\"", "\"#6a00ff\"",
    "\"#e900ff\"", "\"#000000\"", "\"#770000\"", "\"#ff7700\""]

def script : Setting → Script
  | elasticX => Script.code ".elasticX(true)"
  | elasticY => Script.code ".elasticY(true)"
  | renderArea => Script.code ".renderArea(true)"
  | margins => Script.code ".margins(\x7btop: 20, right: 40, bottom: 20, left: 40\x7d)"
  | existenceFilter =>
    Script.code ".existenceAccessor(" ++ Script.function "d" (Script.code "d.value > 0") ++
      Script.code ")"
  | categoryColors =>
    Script.code ".colorAccessor(" ++ Script.function "d" (Script.code "d.key[2]") ++
      Script.codeLines
        [")",
          "    .colors(d3.scale.ordinal().domain([0, 1, 2, 3, 4, 5, 6, 7, 8, 9]).range([" ++
            String.intercalate ", " colors ++ "]))"]
  | pairFilter =>
    Script.codeLines
      [".filterHandler(function(dim, filters) \x7b",
        "        if (!filters || !filters.length) \x7b",
        "            dim.filter(null);",
        "        \x7d else \x7b",
        "            dim.filterFunction(function(d) \x7b",
        "                return filters[0].isFiltered([d[0], d[1]]);",
        "            \x7d);",
        "        \x7d",
        "        return filters;",
        "    \x7d)"]

def scatter : List Setting :=
  [elasticY, elasticX, margins, existenceFilter, categoryColors, pairFilter]

end Setting

namespace ChartSize

def script (size : ChartSize) : Script :=
  Script.code
    (".width(" ++ Numeral.ofNat size.width.toNat ++ ").height(" ++
      Numeral.ofNat size.height.toNat ++ ")")

end ChartSize

namespace ChartKind

/-- Whether a chart of this kind needs numbers for keys. -/
def isNumeric : ChartKind → Bool
  | barChart => true
  | lineChart => true
  | timeChart => true
  | _ => false

def widget : ChartKind → String
  | barChart => "barChart"
  | rowChart => "rowChart"
  | lineChart => "lineChart"
  | timeChart => "barChart"
  | pieChart => "pieChart"
  | scatterPlot => "scatterPlot"
  | scatterPlotTime => "scatterPlot"

def scale : ChartKind → Scale
  | barChart => .wholeNumbers
  | rowChart => .none
  | lineChart => .time
  | timeChart => .time
  | pieChart => .none
  | scatterPlot => .linear
  | scatterPlotTime => .time

def settings : ChartKind → List Setting
  | barChart => [.elasticY]
  | rowChart => [.elasticX]
  | lineChart => [.elasticY, .elasticX, .renderArea]
  | timeChart => [.elasticY, .elasticX]
  | pieChart => []
  | scatterPlot => Setting.scatter
  | scatterPlotTime => Setting.scatter

end ChartKind

namespace Chart

def projection (chart : Chart) : Projection :=
  match chart.axis with
  | .scatter x y color => .triple x y color
  | .single field => if chart.kind.isNumeric then .numeric field else .raw field

/-- The text over a chart: its field, or its element key where it has several. -/
def label (chart : Chart) : String :=
  match chart.axis with
  | .single field => field
  | .scatter _ _ _ => chart.elementKey

end Chart

namespace Program

def ofChart (chart : Chart) (index : IndexName) : Program where
  elementKey := chart.elementKey
  label := chart.label
  index := index
  projection := chart.projection
  grouping := .ofReducer chart.reducer
  probeField := chart.axis.primary
  widget := chart.kind.widget
  scale := chart.kind.scale
  settings := chart.kind.settings
  size := chart.size
  access := .ofReducer chart.reducer

def calls (program : Program) : List Script :=
  program.scale.script?.toList ++ program.settings.map Setting.script ++
    [program.size.script] ++ program.access.setting?.toList

/-- The statements of a program, one for each line but for those that are spread over several. -/
def statements (program : Program) : List Script :=
  [Script.code "var chartId = \"dc-\" + displayId + \"-chart-\" + " ++
      [.literal program.elementKey, .code ";"],
    Script.code
        "element.append('<div style=\"float: left;\" id=\"' + chartId + '\"><strong>' + " ++
      [.literal (Text.Html.escape program.label),
        .code " + '</strong><div style=\"clear: both;\"></div></div>');"],
    Script.code ("var dim = " ++ program.index.text ++ ".dimension(") ++
      program.projection.script ++ Script.code ");",
    program.grouping.script,
    [.code "var min = dim.bottom(1)[0][", .literal program.probeField, .code "];"],
    [.code "var max = dim.top(1)[0][", .literal program.probeField, .code "] + 1;"],
    Script.code ("var chart = dc." ++ program.widget ++ "(\"#\" + chartId);"),
    Script.separated "\n    " (Script.code "chart.dimension(dim).group(group)" :: program.calls) ++
      Script.code ";"]

def script (program : Program) : Script := Script.separated "\n" program.statements

def text (program : Program) : String := program.script.text

end Program

def Fragment.ofChart (chart : Chart) (index : IndexName) : Fragment where
  label := chart.caption
  elementKey := some chart.elementKey
  body := (Program.ofChart chart index).text

end LinkedViews
