import LinkedViews.Chart.Basic
import LinkedViews.Delimited.Reader
import LinkedViews.Json.Cursor

/-!
The reasons for which a dashboard is not made or not written, and their messages.
-/

namespace LinkedViews

inductive FileFault where
  | notFound
  | isDirectory
  | notDirectory
  | nameTooLong
  | nameWithNull
  | notText
  | other (description : String)
deriving DecidableEq, Repr

def FileFault.message : FileFault → String
  | .notFound => "No such file or directory (os error 2)"
  | .isDirectory => "Is a directory (os error 21)"
  | .notDirectory => "Not a directory (os error 20)"
  | .nameTooLong => "File name too long (os error 36)"
  | .nameWithNull => "file name contained an unexpected NUL byte"
  | .notText => "stream did not contain valid UTF-8"
  | .other description => description

/-- Charts are given by what they are called in messages. -/
inductive Failure where
  | file (fault : FileFault)
  | json (fault : Json.Fault)
  | delimited (fault : Delimited.Fault)
  /-- A table whose file could be opened but not read. -/
  | unreadable (fault : FileFault)
  | unknownChartKind (name : String)
  | unknownReducer (name : String)
  | missingReducerField (chart : String) (reducer : ReducerKind)
  | axisArity (chart : String) (kind : ChartKind) (found : Nat)
  | emptyField (chart : String)
  | invalidSize (chart : String) (size : ChartSize)
  | unknownField (chart field : String)
  | sharedElementKey (first second key : String)
  | invalidIndexName (name : String)
  | indexNameMismatch (chart expected found : String)
  | unknownCategorical (column : String)
deriving DecidableEq, Repr

namespace Failure

def message : Failure → String
  | file fault => "IO error: " ++ fault.message
  | json fault => "JSON serialization error: " ++ fault.message
  | delimited fault => "CSV error: " ++ fault.message
  | unreadable fault => "CSV error: " ++ fault.message
  | unknownChartKind name => "Unknown chart kind: " ++ name
  | unknownReducer name => "Unknown reducer: " ++ name
  | missingReducerField chart reducer =>
    "Chart " ++ chart ++ ": reducer " ++ reducer.name ++ " needs a dimension_reducer field"
  | axisArity chart kind found =>
    "Chart " ++ chart ++ ": " ++ kind.name ++ " takes " ++ Numeral.ofNat kind.arity ++
      " axis field(s), got " ++ Numeral.ofNat found
  | emptyField chart => "Chart " ++ chart ++ ": empty field name"
  | invalidSize chart size =>
    "Chart " ++ chart ++ ": width and height must be positive, got " ++
      Numeral.ofNat size.width.toNat ++ "x" ++ Numeral.ofNat size.height.toNat
  | unknownField chart field =>
    "Chart " ++ chart ++ ": field " ++ Text.Quoted.render field ++ " is not a column of the dataset"
  | sharedElementKey first second key =>
    "Charts " ++ first ++ " and " ++ second ++ " share the element id key " ++
      Text.Quoted.render key
  | invalidIndexName name => "Invalid index name " ++ Text.Quoted.render name
  | indexNameMismatch chart expected found =>
    "Chart " ++ chart ++ " targets index " ++ Text.Quoted.render found ++
      " but the dashboard index is " ++ Text.Quoted.render expected
  | unknownCategorical column =>
    "Dataset parse error: categorical column " ++ Text.Quoted.render column ++ " not in header"

def cause? : Failure → Option String
  | file fault => some fault.message
  | json fault => some fault.message
  | delimited fault => some fault.message
  | unreadable fault => some fault.message
  | _ => none

end Failure

end LinkedViews
