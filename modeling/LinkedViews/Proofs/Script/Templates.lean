import LinkedViews.Proofs.Script.Spelling
import LinkedViews.Script.Program

/-!
The program of a chart spelled out. Its template depends on the kind of the chart and the kind of
its reducer alone; whatever else a chart has is filled into the gaps.
-/

namespace LinkedViews

/-! ## The parts of a program -/

def Setting.spelledColors : Spelled fun _ => String.intercalate ", " Setting.colors :=
  .intercalate (.ofList rfl)
    (.line rfl <| .line rfl <| .line rfl <| .line rfl <| .line rfl <| .line rfl <| .line rfl <|
      .line rfl <| .line rfl <| .line rfl .nil)

def Setting.spelling : (setting : Setting) → Spelling fun _ => setting.script
  | elasticX => .fixed rfl
  | elasticY => .fixed rfl
  | renderArea => .fixed rfl
  | margins => .fixed rfl
  | existenceFilter =>
    .append (.append (.fixed rfl) (.function (.ofList rfl) (.fixed rfl))) (.fixed rfl)
  | categoryColors =>
    .append (.append (.fixed rfl) (.function (.ofList rfl) (.fixed rfl)))
      (.codeLines
        (.line rfl <| .cons (.append (.append (.ofList rfl) spelledColors) (.ofList rfl)) .nil))
  | pairFilter =>
    .codeLines
      (.line rfl <| .line rfl <| .line rfl <| .line rfl <| .line rfl <| .line rfl <| .line rfl <|
        .line rfl <| .line rfl <| .line rfl .nil)

def Setting.spellings : (settings : List Setting) →
    SpellingList fun _ => settings.map Setting.script
  | [] => .nil
  | setting :: rest => .cons setting.spelling (spellings rest)

def Scale.spellings : (scale : Scale) → SpellingList fun _ => scale.script?.toList
  | none => .nil
  | wholeNumbers => .cons (.codeLines (.line rfl <| .line rfl .nil)) .nil
  | linear => .cons (.fixed rfl) .nil
  | time => .cons (.fixed rfl) .nil

def ValueAccess.spellings : (access : ValueAccess) →
    SpellingList fun _ => access.setting?.toList
  | standard => .nil
  | value =>
    .cons (.append (.append (.fixed rfl) (.function (.ofList rfl) (.fixed rfl))) (.fixed rfl)) .nil
  | average =>
    .cons (.append (.append (.fixed rfl) (.function (.ofList rfl) (.fixed rfl))) (.fixed rfl)) .nil

namespace Projection

def spelledRaw : Spelling fun details => (raw details.x).script :=
  .function (.ofList rfl) (.access (.ofList rfl) .x fun _ => rfl)

def spelledNumeric : Spelling fun details => (numeric details.x).script :=
  .function (.ofList rfl) (.append (.fixed rfl) (.access (.ofList rfl) .x fun _ => rfl))

def spelledTriple :
    Spelling fun details => (triple details.x details.y details.color).script :=
  .function (.ofList rfl)
    (.append
      (.append
        (.append
          (.append
            (.append
              (.append (.fixed rfl) (.access (.ofList rfl) .x fun _ => rfl))
              (.fixed rfl))
            (.access (.ofList rfl) .y fun _ => rfl))
          (.fixed rfl))
        (.access (.ofList rfl) .color fun _ => rfl))
      (.fixed Lexeme.closes_bracket))

end Projection

namespace Grouping

def spelledKeys : Spelling fun _ => keys.expression := .fixed rfl

def spelledCount : Spelling fun _ => count.expression := .fixed rfl

def spelledSum : Spelling fun details => (sum details.reduced).expression :=
  .append
    (.append (.fixed rfl)
      (.function (.ofList rfl)
        (.append (.fixed rfl) (.access (.ofList rfl) .reduced fun _ => rfl))))
    (.fixed rfl)

def spelledStep {count sum : String} (counted : Spelled fun _ => count)
    (summed : Spelled fun _ => sum) :
    Spelling fun details => meanStep count sum details.reduced :=
  .append
    (.append
      (.codeLines (.line rfl <| .cons (.append (.append (.ofList rfl) counted) (.ofList rfl)) <|
        .cons (.append (.append (.ofList rfl) summed) (.ofList rfl)) .nil))
      (.access (.ofList rfl) .reduced fun _ => rfl))
    (.codeLines (.line rfl <| .line rfl <| .line rfl <| .line rfl .nil))

def spelledMean : Spelling fun details => (mean details.reduced).expression :=
  .append
    (.append (.append (.fixed rfl) (spelledStep (.ofList rfl) (.ofList rfl)))
      (spelledStep (.ofList rfl) (.ofList rfl)))
    (.codeLines (.line rfl <| .line rfl <| .line rfl <| .line rfl .nil))

def spelledTotals : Spelling fun _ => totals :=
  .codeLines
    (.line rfl <| .line rfl <| .line rfl <| .line rfl <| .line rfl <| .line rfl <| .line rfl <|
      .line rfl <| .line rfl <| .line rfl <| .line rfl <| .line rfl .nil)

end Grouping

def ChartKind.spelledWidget : (kind : ChartKind) → Spelled fun _ => kind.widget
  | timeChart => .ofList rfl
  | rowChart => .ofList rfl
  | barChart => .ofList rfl
  | lineChart => .ofList rfl
  | scatterPlot => .ofList rfl
  | scatterPlotTime => .ofList rfl
  | pieChart => .ofList rfl

/-! ## Programs -/

namespace Details

def projection (kind : ChartKind) (details : Details) : Projection :=
  match kind.isScatter, kind.isNumeric with
  | true, _ => .triple details.x details.y details.color
  | false, true => .numeric details.x
  | false, false => .raw details.x

def reducer (kind : ReducerKind) (details : Details) : Reducer :=
  match kind with
  | .none => .none
  | .count => .count
  | .sum => .sum details.reduced
  | .mean => .mean details.reduced
  | .cumulativeSum => .cumulativeSum details.reduced
  | .cumulativeCount => .cumulativeCount

/-- The program of a chart of a kind and a reducer. -/
def program (kind : ChartKind) (reducer : ReducerKind) (details : Details) : Program where
  elementKey := details.elementKey
  label := details.label
  index := details.index
  projection := details.projection kind
  grouping := .ofReducer (details.reducer reducer)
  probeField := details.x
  widget := kind.widget
  scale := kind.scale
  settings := kind.settings
  size := details.size
  access := .ofReducer (details.reducer reducer)

end Details

namespace Program

open Details

variable (kind : ChartKind) (reducer : ReducerKind)

def spelledProjection (kind : ChartKind) : Spelling fun details => (details.projection kind).script :=
  match kind with
  | .timeChart => Projection.spelledNumeric
  | .rowChart => Projection.spelledRaw
  | .barChart => Projection.spelledNumeric
  | .lineChart => Projection.spelledNumeric
  | .scatterPlot => Projection.spelledTriple
  | .scatterPlotTime => Projection.spelledTriple
  | .pieChart => Projection.spelledRaw

def spelledGrouping (reducer : ReducerKind) :
    Spelling fun details => (Grouping.ofReducer (details.reducer reducer)).script :=
  match reducer with
  | .none => .append (.append (.fixed rfl) Grouping.spelledKeys) (.fixed rfl)
  | .count => .append (.append (.fixed rfl) Grouping.spelledCount) (.fixed rfl)
  | .sum => .append (.append (.fixed rfl) Grouping.spelledSum) (.fixed rfl)
  | .mean => .append (.append (.fixed rfl) Grouping.spelledMean) (.fixed rfl)
  | .cumulativeSum => .append (.append (.fixed rfl) Grouping.spelledSum) Grouping.spelledTotals
  | .cumulativeCount => .append (.append (.fixed rfl) Grouping.spelledCount) Grouping.spelledTotals

def spelledSize : Spelling fun details => details.size.script :=
  .code (.append
    (.append
      (.append (.append (.ofList rfl) (.word .width fun _ => String.toList_ofList)) (.ofList rfl))
      (.word .height fun _ => String.toList_ofList))
    (.ofList rfl))

def spelledAccess (reducer : ReducerKind) : SpellingList fun details =>
    (ValueAccess.ofReducer (details.reducer reducer)).setting?.toList :=
  match reducer with
  | .none => .nil
  | .count => .nil
  | .sum => .nil
  | .mean => ValueAccess.average.spellings
  | .cumulativeSum => ValueAccess.value.spellings
  | .cumulativeCount => ValueAccess.value.spellings

def spelledCalls (kind : ChartKind) (reducer : ReducerKind) :
    SpellingList fun details => (program kind reducer details).calls :=
  .append
    (.append (.append kind.scale.spellings (Setting.spellings kind.settings))
      (.cons spelledSize .nil))
    (spelledAccess reducer)

/-! ### Statements -/

def spelledId : Spelling fun details =>
    Script.code "var chartId = \"dc-\" + displayId + \"-chart-\" + " ++
      [.literal details.elementKey, .code ";"] :=
  .append (.fixed rfl) <| .literalCons .elementKey (fun _ => rfl) <| .codeCons (.ofList rfl) .nil

def spelledContainer : Spelling fun details =>
    Script.code
        "element.append('<div style=\"float: left;\" id=\"' + chartId + '\"><strong>' + " ++
      [.literal (Text.Html.escape details.label),
        .code " + '</strong><div style=\"clear: both;\"></div></div>');"] :=
  .append (.fixed rfl) <| .literalCons .label (fun _ => rfl) <| .codeCons (.ofList rfl) .nil

def spelledDimension (kind : ChartKind) : Spelling fun details =>
    Script.code ("var dim = " ++ details.index.text ++ ".dimension(") ++
      (details.projection kind).script ++ Script.code ");" :=
  .append
    (.append
      (.code (.append (.append (.ofList rfl) (.word .index Details.word_index)) (.ofList rfl)))
      (spelledProjection kind))
    (.fixed Lexeme.closes_callEnd)

def spelledMin : Spelling fun details =>
    [.code "var min = dim.bottom(1)[0][", .literal details.x, .code "];"] :=
  .codeCons (.ofList rfl) <| .literalCons .x (fun _ => rfl) <| .codeCons (.ofList rfl) .nil

def spelledMax : Spelling fun details =>
    [.code "var max = dim.top(1)[0][", .literal details.x, .code "] + 1;"] :=
  .codeCons (.ofList rfl) <| .literalCons .x (fun _ => rfl) <| .codeCons (.ofList rfl) .nil

def spelledChart (kind : ChartKind) : Spelling fun _ =>
    Script.code ("var chart = dc." ++ kind.widget ++ "(\"#\" + chartId);") :=
  .code (.append (.append (.ofList rfl) kind.spelledWidget) (.ofList rfl))

def spelledStart : Spelling fun _ => Script.code "chart.dimension(dim).group(group)" := .fixed rfl

def spelledSetup (kind : ChartKind) (reducer : ReducerKind) : Spelling fun details =>
    Script.separated "\n    "
        (Script.code "chart.dimension(dim).group(group)" :: (program kind reducer details).calls) ++
      Script.code ";" :=
  .append (.separated (.ofList rfl) (.cons spelledStart (spelledCalls kind reducer))) (.fixed rfl)

/-- The template of the charts of a kind and a reducer. -/
def spelling (kind : ChartKind) (reducer : ReducerKind) :
    Spelling fun details => (program kind reducer details).script :=
  .separated (.ofList Lexeme.closes_lineEnd) <|
    .cons spelledId <| .cons spelledContainer <| .cons (spelledDimension kind) <|
    .cons (spelledGrouping reducer) <| .cons spelledMin <| .cons spelledMax <|
    .cons (spelledChart kind) <| .cons (spelledSetup kind reducer) .nil

/-! ### Segments -/

def feed : List Part := [.code ['\n'] Lexeme.closes_lineEnd]

/-- What stands before each call of the last statement but the first. -/
def margin : List Part := [.code ['\n', ' ', ' ', ' ', ' '] rfl]

def container : List Part := spelledId.parts ++ feed ++ spelledContainer.parts ++ feed

def dimension (kind : ChartKind) : List Part := (spelledDimension kind).parts ++ feed

def groups (reducer : ReducerKind) : List Part := (spelledGrouping reducer).parts ++ feed

def probes : List Part := spelledMin.parts ++ feed ++ spelledMax.parts ++ feed

def drawing (kind : ChartKind) : List Part :=
  (spelledChart kind).parts ++ feed ++ spelledStart.parts ++
    kind.scale.spellings.parts.flatMap (margin ++ ·)

def layout (kind : ChartKind) : List Part :=
  (Setting.spellings kind.settings).parts.flatMap (margin ++ ·) ++ margin ++ spelledSize.parts

def reading (reducer : ReducerKind) : List Part :=
  (spelledAccess reducer).parts.flatMap (margin ++ ·) ++ [.code [';'] rfl]

theorem intercalate_cons {β : Type} (between first : List β) (rest : List (List β)) :
    between.intercalate (first :: rest) = first ++ rest.flatMap (between ++ ·) := by
  induction rest generalizing first with
  | nil => simp
  | cons next more ih =>
      rw [List.intercalate_cons_cons, ih, List.flatMap_cons, List.append_assoc, List.append_assoc]

/-- A template is made of segments, each of which depends on the kind of the chart, on the kind of
its reducer, or on neither. -/
theorem parts_spelling (kind : ChartKind) (reducer : ReducerKind) :
    (spelling kind reducer).parts =
      container ++ (dimension kind ++ (groups reducer ++ (probes ++ (drawing kind ++
        (layout kind ++ reading reducer))))) := by
  have setup : (spelledSetup kind reducer).parts =
      margin.intercalate (spelledStart.parts :: (spelledCalls kind reducer).parts) ++
        [.code [';'] rfl] := rfl
  have calls : (spelledCalls kind reducer).parts =
      kind.scale.spellings.parts ++ (Setting.spellings kind.settings).parts ++
        [spelledSize.parts] ++ (spelledAccess reducer).parts := rfl
  have statements : (spelling kind reducer).parts =
      feed.intercalate [spelledId.parts, spelledContainer.parts, (spelledDimension kind).parts,
        (spelledGrouping reducer).parts, spelledMin.parts, spelledMax.parts,
        (spelledChart kind).parts, (spelledSetup kind reducer).parts] := rfl
  rw [statements, setup, calls, intercalate_cons, intercalate_cons]
  simp [container, dimension, groups, probes, drawing, layout, reading]

end Program

end LinkedViews
