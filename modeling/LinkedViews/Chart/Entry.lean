import LinkedViews.Failure
import LinkedViews.Json.Record
import LinkedViews.Script.IndexName

/-!
Charts as a configuration describes them, and the checks that a chart has to pass. The first
check that fails decides the message.
-/

namespace LinkedViews

/-- The axis of an entry: one field, or a list of fields. -/
inductive AxisEntry where
  | single (field : String)
  | many (fields : List String)
deriving DecidableEq, Repr

def AxisEntry.fields : AxisEntry → List String
  | single field => [field]
  | many fields => fields

structure ChartEntry where
  kind : String
  axis : AxisEntry
  reducer : String
  reducerField : Option String
  width : Option UInt32
  height : Option UInt32
  indexName : Option String
deriving DecidableEq, Repr

/-- The chart of some parts, provided that they go together. -/
def Chart.ofParts (kind : ChartKind) (fields : List String) (reducer : ReducerKind)
    (reducerField : Option String) (size : ChartSize) : Except Failure Chart :=
  let chart := title kind fields
  match Axis.ofFields? kind fields with
  | none => .error (.axisArity chart kind fields.length)
  | some axis =>
    if "" ∈ fields then .error (.emptyField chart)
    else if size.width = 0 ∨ size.height = 0 then .error (.invalidSize chart size)
    else if reducer.usesField ∧ reducerField = some "" then .error (.emptyField chart)
    else match Reducer.ofKind? reducer reducerField with
      | none => .error (.missingReducerField chart reducer)
      | some reducer => .ok ⟨kind, axis, reducer, size⟩

namespace ChartEntry

def size (entry : ChartEntry) : ChartSize :=
  ⟨entry.width.getD ChartSize.standard.width, entry.height.getD ChartSize.standard.height⟩

/-- The chart that an entry gives on a dashboard over an index. -/
def chart (index : IndexName) (entry : ChartEntry) : Except Failure Chart :=
  match ChartKind.ofName? entry.kind with
  | none => .error (.unknownChartKind entry.kind)
  | some kind => match ReducerKind.ofName? entry.reducer with
    | none => .error (.unknownReducer entry.reducer)
    | some reducer =>
      match entry.indexName.filter fun name => name ≠ index.text with
      | some name =>
        .error (.indexNameMismatch (Chart.title kind entry.axis.fields) index.text name)
      | none => Chart.ofParts kind entry.axis.fields reducer entry.reducerField entry.size

def charts (index : IndexName) (entries : List ChartEntry) : Except Failure (List Chart) :=
  entries.mapM (chart index)

end ChartEntry

end LinkedViews
