import LinkedViews.Dashboard.Project

/-!
Two listings of a dashboard: a report of its table and of what each chart shows, and a short
overview of a project.
-/

namespace LinkedViews

structure ReportOptions where
  maxBuckets : Nat
  fragments : Bool
deriving DecidableEq, Repr

def ReportOptions.standard : ReportOptions := ⟨20, true⟩

namespace Report

def rule : String := String.ofList (List.replicate 80 '=')

def heading (title : String) : List String := [rule, title, rule]

def sizeText (size : ChartSize) : String :=
  Numeral.ofNat size.width.toNat ++ "x" ++ Numeral.ofNat size.height.toNat

def tableLines (table : Table) : List String :=
  ("Dataset: " ++ Numeral.ofNat table.rowCount ++ " rows") ::
    table.columns.map fun column => "  " ++ Text.padRight 24 column.name ++ " " ++ column.kind.name

def domainLine : Option Domain → String
  | some domain => "Domain probe: min=" ++ domain.lower.display ++ " max=" ++ domain.upper.display
  | none => "Domain probe: (empty dataset)"

def bucketLine (bucket : Bucket) : String :=
  "  " ++ Text.padRight 30 bucket.key.display ++ " " ++ Numeral.plain bucket.value

def bucketLines (maxBuckets : Nat) (buckets : List Bucket) : List String :=
  ("Buckets: " ++ Numeral.ofNat buckets.length) :: (buckets.take maxBuckets).map bucketLine ++
    if maxBuckets < buckets.length then
      ["  ... " ++ Numeral.ofNat (buckets.length - maxBuckets) ++ " more"]
    else []

def chartLines (maxBuckets : Nat) (chart : Chart) (preview : Preview) : List String :=
  ["Element key: " ++ preview.elementKey, "Reducer: " ++ chart.reducer.kind.name] ++
    (chart.reducer.field?.map fun field => "Reduced field: " ++ field).toList ++
    ["Size: " ++ sizeText chart.size, domainLine preview.domain] ++
    bucketLines maxBuckets preview.buckets

def fragmentLines (fragment : Fragment) : List String :=
  ["", "Fragment:"] ++
    (Text.lines fragment.text.toList).map fun line => "  " ++ String.ofList line

/-- The section of the chart at a number, counted from one. -/
def chartSection (options : ReportOptions) (dashboard : Dashboard) (number : Nat)
    (chart : Chart) (fragment : Fragment) : List String :=
  "" :: heading ("CHART " ++ Numeral.ofNat number ++ ": " ++ chart.caption) ++
    chartLines options.maxBuckets chart (dashboard.preview chart) ++
    if options.fragments then fragmentLines fragment else []

def lines (options : ReportOptions) (dashboard : Dashboard) : List String :=
  heading "Crossfilter Dashboard Dump" ++
    ["Index: " ++ dashboard.index.text,
      "Charts: " ++ Numeral.ofNat dashboard.charts.length,
      ""] ++
    tableLines dashboard.table ++
    ((dashboard.charts.zip dashboard.fragments).mapIdx fun index (chart, fragment) =>
      chartSection options dashboard (index + 1) chart fragment).flatten

def text (options : ReportOptions) (dashboard : Dashboard) : String :=
  Text.ofLines (lines options dashboard)

end Report

namespace Project

def columnLines (table : Table) : List String :=
  ["", "Columns", "-------"] ++
    table.columns.map fun column => "  " ++ column.name ++ " (" ++ column.kind.name ++ ")"

def chartLines (dashboard : Dashboard) : List String :=
  ["", "Charts", "------"] ++
    (dashboard.charts.zip dashboard.fragments).flatMap fun (chart, fragment) =>
      ["  " ++ chart.caption ++ " [" ++ fragment.elementKey.getD "-" ++ "]",
        "    Reducer: " ++ chart.reducer.kind.name,
        "    Size: " ++ Report.sizeText chart.size]

/-- A short overview of a project; a verbose one lists columns and charts. -/
def overview (project : Project) (verbose : Bool) : String :=
  let dashboard := project.dashboard
  Text.ofLines
    (["Crossfilter Dashboard Information",
        "=================================",
        "Index: " ++ dashboard.index.text,
        "Output: " ++ project.configuration.output,
        "Records: " ++ Numeral.ofNat dashboard.table.rowCount,
        "Columns: " ++ Numeral.ofNat dashboard.table.columns.length,
        "Charts: " ++ Numeral.ofNat dashboard.charts.length] ++
      if verbose then columnLines dashboard.table ++ chartLines dashboard else [])

end Project

end LinkedViews
