import LinkedViews.Chart.Kind
import LinkedViews.Chart.Reducer

/-!
Charts: a kind, an axis of one or three fields, a reducer and a size in pixels.
-/

namespace LinkedViews

/-- The fields that a chart lays its records over. -/
inductive Axis where
  | single (field : String)
  | scatter (x y color : String)
deriving DecidableEq, Repr

namespace Axis

def fields : Axis → List String
  | single field => [field]
  | scatter x y color => [x, y, color]

def primary : Axis → String
  | single field => field
  | scatter x _ _ => x

/-- The axis of a chart kind over a list of fields, if it has the right number of them. -/
def ofFields? (kind : ChartKind) (fields : List String) : Option Axis :=
  match kind.isScatter, fields with
  | false, [field] => some (single field)
  | true, [x, y, color] => some (scatter x y color)
  | _, _ => none

end Axis

structure ChartSize where
  width : UInt32
  height : UInt32
deriving DecidableEq, Repr

def ChartSize.standard : ChartSize := ⟨450, 250⟩

structure Chart where
  kind : ChartKind
  axis : Axis
  reducer : Reducer
  size : ChartSize
deriving DecidableEq, Repr

namespace Chart

/-- How a chart of a kind over some fields is called in labels and messages. -/
def title (kind : ChartKind) (fields : List String) : String :=
  kind.name ++ "(" ++ String.intercalate ", " fields ++ ")"

def caption (chart : Chart) : String := title chart.kind chart.axis.fields

/-- Every field of a record that the chart reads. -/
def fieldsRead (chart : Chart) : List String :=
  chart.axis.fields ++ chart.reducer.field?.toList

def flattened (field : String) : String :=
  String.ofList (field.toList.map fun c => if c = '.' then '_' else c)

/-- The key of the chart's container on the page: the fields, then the kind of reducer. -/
def elementKey (chart : Chart) : String :=
  String.intercalate "___" (chart.axis.fields.map flattened) ++ "_" ++ chart.reducer.kind.name

end Chart

end LinkedViews
