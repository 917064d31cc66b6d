import LinkedViews.Failure
import LinkedViews.Page.Loader
import LinkedViews.Script.Program
import LinkedViews.Script.Summary
import LinkedViews.Table.Records

/-!
Dashboards: a table and charts of it that share one index, so that a selection in one of them acts
on all. The charts of a dashboard read only columns that the table has, and each has an element key
of its own.
-/

namespace LinkedViews

structure Dashboard where
  table : Table
  index : IndexName
  /-- Empty where the fragments were not made from charts. -/
  charts : List Chart
  fragments : List Fragment
deriving DecidableEq

namespace Dashboard

/-- The first chart that reads a field without a column, and its first such field. -/
def unknownField? (table : Table) (charts : List Chart) : Option (Chart × String) :=
  charts.findSome? fun chart =>
    (chart.fieldsRead.find? fun field => !table.hasColumn field).map fun field => (chart, field)

/-- The first chart whose element key has occurred before, behind the chart it occurred in. -/
def sharedKey? (before : List Chart) : List Chart → Option (Chart × Chart)
  | [] => none
  | chart :: rest =>
    match before.find? fun earlier => earlier.elementKey = chart.elementKey with
    | some earlier => some (earlier, chart)
    | none => sharedKey? (before ++ [chart]) rest

def ofCharts (table : Table) (index : IndexName) (charts : List Chart) :
    Except Failure Dashboard :=
  match unknownField? table charts with
  | some (chart, field) => .error (.unknownField chart.caption field)
  | none =>
    match sharedKey? [] charts with
    | some (first, second) =>
      .error (.sharedElementKey first.caption second.caption second.elementKey)
    | none => .ok ⟨table, index, charts, charts.map fun chart => .ofChart chart index⟩

def ofFragments (table : Table) (index : IndexName) (fragments : List Fragment) : Dashboard :=
  ⟨table, index, [], fragments⟩

/-- The sections of the script: three bindings, the summary, the charts, and the calls that draw
them. -/
def sections (dashboard : Dashboard) (displayId : String) : List String :=
  ["var displayId = " ++ Json.quote displayId ++ ";",
    "var " ++ Table.standardVariable ++ " = " ++ dashboard.table.recordsText ++ ";",
    "var " ++ dashboard.index.text ++ " = crossfilter(" ++ Table.standardVariable ++ ");",
    (Fragment.summary dashboard.index).text] ++
  dashboard.fragments.map Fragment.text ++
  ["dc.renderAll();\ndc.redrawAll();"]

def script (dashboard : Dashboard) (displayId : String) : String :=
  Resources.opener ++ "\n" ++
    String.intercalate "\n\n"
      ((dashboard.sections displayId).map (Text.indent Fragment.margin)) ++
    "\n\x7d);\n"

end Dashboard

end LinkedViews
