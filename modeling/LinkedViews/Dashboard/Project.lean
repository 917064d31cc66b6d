import LinkedViews.Configuration
import LinkedViews.Dashboard.Basic
import LinkedViews.Page.Document
import LinkedViews.Preview.Chart
import LinkedViews.Table.Export
import LinkedViews.Table.Import

/-!
Projects: a configuration together with the dashboard that it describes over a table, and the files
that a dashboard is saved as.
-/

namespace LinkedViews

structure Project where
  configuration : Configuration
  dashboard : Dashboard

namespace Project

def ofParts (configuration : Configuration) (bytes : List UInt8) : Except Failure Project := do
  let table ← Table.ofDelimited configuration.categorical bytes
  let index ← configuration.index
  let charts ← ChartEntry.charts index configuration.charts
  return ⟨configuration, ← Dashboard.ofCharts table index charts⟩

end Project

structure SavedFiles where
  page : String
  table : String
  /-- Of the same content as the table. -/
  records : String
deriving DecidableEq, Repr

/-- Each ending is added to the name as it stands, whatever dots are in it. -/
def SavedFiles.ofName (base : String) : SavedFiles :=
  ⟨base ++ ".html", base ++ ".csv", base ++ ".json"⟩

namespace Dashboard

def page (dashboard : Dashboard) (resources : Resources) (displayId : String) : String :=
  Page.document resources displayId (dashboard.script displayId)

def preview (dashboard : Dashboard) (chart : Chart) : Preview :=
  .ofChart chart dashboard.index dashboard.table

end Dashboard

end LinkedViews
