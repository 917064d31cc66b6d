import LinkedViews.Chart.Entry
import LinkedViews.Page.Resources

/-!
Configurations of dashboards and their JSON form. Everything but the list of charts may be left
out, and in a chart everything but its kind and axis.
-/

namespace LinkedViews

structure Configuration where
  indexName : String
  /-- The name that saved files have in common. -/
  output : String
  categorical : List String
  resources : Resources
  charts : List ChartEntry
deriving DecidableEq, Repr

namespace Configuration

def standardOutput : String := "crossfilter"

def textField {σ : Type} (name : String) (required : Bool) (set : σ → String → σ) :
    Json.Field σ where
  name := name
  required := required
  read _ record := do return set record (← Json.Reader.text)

def optionalField {σ α : Type} (name : String) (reader : Json.Reader α)
    (set : σ → Option α → σ) : Json.Field σ where
  name := name
  required := false
  read _ record := do return set record (← Json.Reader.optional reader)

def resourcesRecord : Json.Record Resources where
  name := "Resources"
  blank := .standard
  fields :=
    [textField "require_js" false fun record value => { record with requireJs := value },
      textField "jquery" false fun record value => { record with jquery := value },
      textField "d3" false fun record value => { record with d3 := value },
      textField "crossfilter" false fun record value => { record with crossfilter := value },
      textField "dc" false fun record value => { record with dc := value },
      textField "dc_css" false fun record value => { record with dcCss := value }]

/-- The texts of a list that holds nothing else. -/
def texts? : List Json → Option (List String)
  | [] => some []
  | .text value :: rest => (value :: ·) <$> texts? rest
  | _ => none

def axisOfJson? : Json → Option AxisEntry
  | .text field => some (.single field)
  | .array items => (texts? items).map AxisEntry.many
  | _ => none

/-- An axis is read as any value at first, and refused as a whole. -/
def axis (depth : Nat) : Json.Reader AxisEntry := do
  match axisOfJson? (← Json.Reader.value depth) with
  | some axis => return axis
  | none => Json.Reader.refuse (.noChoice "AxisConfig")

def chartRecord : Json.Record ChartEntry where
  name := "ChartConfig"
  blank := ⟨"", .many [], ReducerKind.none.name, none, none, none, none⟩
  fields :=
    [textField "kind" true fun record value => { record with kind := value },
      ⟨"axis", true, fun depth record => do return { record with axis := ← axis depth }⟩,
      textField "reducer" false fun record value => { record with reducer := value },
      optionalField "dimension_reducer" Json.Reader.text
        fun record value => { record with reducerField := value },
      optionalField "width" Json.Reader.word32 fun record value => { record with width := value },
      optionalField "height" Json.Reader.word32 fun record value => { record with height := value },
      optionalField "crossfilter_name" Json.Reader.text
        fun record value => { record with indexName := value }]

def record : Json.Record Configuration where
  name := "DashboardConfig"
  blank := ⟨IndexName.standardText, standardOutput, [], .standard, []⟩
  fields :=
    [textField "index_name" false fun record value => { record with indexName := value },
      textField "output" false fun record value => { record with output := value },
      ⟨"categorical", false, fun depth record => do
        let names ← Json.Reader.listOf (fun _ => Json.Reader.text) depth
        return { record with categorical := names }⟩,
      ⟨"resources", false, fun depth record => do
        return { record with resources := ← resourcesRecord.reader depth }⟩,
      ⟨"charts", true, fun depth record => do
        return { record with charts := ← Json.Reader.listOf chartRecord.reader depth }⟩]

def ofText (text : String) : Except Failure Configuration :=
  match Json.ofText (record.reader Json.maximalDepth) text with
  | .ok configuration => .ok configuration
  | .error fault => .error (.json fault)

def index (configuration : Configuration) : Except Failure IndexName :=
  match IndexName.ofText? configuration.indexName with
  | some index => .ok index
  | none => .error (.invalidIndexName configuration.indexName)

end Configuration

end LinkedViews
