import LinkedViews.Proofs.Chart.Validation
import LinkedViews.Proofs.Script.Mold
import LinkedViews.Proofs.Script.Templates

/-!
Programs read back. Outside its literals the program of a chart is made of the lexemes of its
template, of the name of the index and of the numbers of its size; the names that come from data
are each in a literal of their own. So the text of a program tells the whole chart.
-/

namespace LinkedViews

namespace Program

def molds (kind : ChartKind) (reducer : ReducerKind) : List Mold :=
  moldsOf (spelling kind reducer).parts

theorem molds_eq (kind : ChartKind) (reducer : ReducerKind) :
    molds kind reducer =
      moldsOf container ++ (moldsOf (dimension kind) ++ (moldsOf (groups reducer) ++
        (moldsOf probes ++ (moldsOf (drawing kind) ++
          (moldsOf (layout kind) ++ moldsOf (reading reducer)))))) := by
  rw [molds, parts_spelling]
  simp only [moldsOf_append]

theorem sound_molds (kind : ChartKind) (reducer : ReducerKind) :
    Mold.Sound (molds kind reducer) := by
  have first : Mold.Sound (moldsOf container) := by decide
  have keyed : Mold.Sound (moldsOf (dimension kind)) := by cases kind <;> decide
  have grouped : Mold.Sound (moldsOf (groups reducer)) := by cases reducer <;> decide +kernel
  have probed : Mold.Sound (moldsOf probes) := by decide
  have drawn : Mold.Sound (moldsOf (drawing kind)) := by cases kind <;> decide
  have laid : Mold.Sound (moldsOf (layout kind)) := by cases kind <;> decide +kernel
  have last : Mold.Sound (moldsOf (reading reducer)) := by cases reducer <;> decide
  rw [molds_eq]
  exact first.append <| keyed.append <| grouped.append <| probed.append <| drawn.append <|
    laid.append last

theorem dimension_eq_or_clash (kind other : ChartKind) :
    dimension kind = dimension other ∨
      Mold.clash (moldsOf (dimension kind)) (moldsOf (dimension other)) = true := by
  cases kind <;> cases other <;> decide

theorem eq_or_clash_groups (reducer other : ReducerKind) :
    reducer = other ∨ Mold.clash (moldsOf (groups reducer)) (moldsOf (groups other)) = true := by
  cases reducer <;> cases other <;> decide

theorem eq_or_clash_drawing (kind other : ChartKind) :
    kind = other ∨ Mold.clash (moldsOf (drawing kind)) (moldsOf (drawing other)) = true := by
  cases kind <;> cases other <;> decide

/-- Two kinds of charts, or two kinds of reducers, never make the same program. -/
theorem eq_or_clash_molds (kind other : ChartKind) (reducer second : ReducerKind) :
    kind = other ∧ reducer = second ∨ Mold.clash (molds kind reducer) (molds other second) = true := by
  rw [molds_eq, molds_eq, Mold.clash_common]
  obtain keyed | clashing := dimension_eq_or_clash kind other
  · rw [keyed, Mold.clash_common]
    obtain rfl | clashing := eq_or_clash_groups reducer second
    · rw [Mold.clash_common, Mold.clash_common]
      obtain rfl | clashing := eq_or_clash_drawing kind other
      · exact .inl ⟨rfl, rfl⟩
      · exact .inr (Mold.clash_append clashing _ _)
    · exact .inr (Mold.clash_append clashing _ _)
  · exact .inr (Mold.clash_append clashing _ _)

end Program

/-! ## Charts -/

/-- Whether a chart has as many fields as its kind needs. -/
def Chart.Fits (chart : Chart) : Prop :=
  match chart.kind.isScatter, chart.axis with
  | true, .scatter _ _ _ => True
  | false, .single _ => True
  | _, _ => False

namespace Chart

variable {kind : ChartKind} {fields : List String} {reducer : ReducerKind}
  {reducerField : Option String} {size : ChartSize} {chart : Chart}

theorem fits_of_ofFields? {axis : Axis} (laid : Axis.ofFields? kind fields = some axis)
    (reducer : Reducer) (size : ChartSize) : Fits ⟨kind, axis, reducer, size⟩ := by
  unfold Axis.ofFields? at laid
  unfold Fits
  split at laid
  · rename_i scatter
    obtain rfl := Option.some.inj laid
    simp only [scatter]
  · rename_i scatter
    obtain rfl := Option.some.inj laid
    simp only [scatter]
  · contradiction

theorem ofParts_eq_ok (made : ofParts kind fields reducer reducerField size = .ok chart) :
    chart.Fits ∧ chart.kind = kind ∧ chart.reducer.kind = reducer ∧ chart.size = size := by
  unfold ofParts at made
  cases laid : Axis.ofFields? kind fields with
  | none => simp [laid] at made
  | some axis =>
      cases found : Reducer.ofKind? reducer reducerField with
      | none =>
          simp only [laid, found] at made
          split_ifs at made
      | some reduced =>
          simp only [laid, found] at made
          split_ifs at made
          obtain rfl := Except.ok.inj made
          exact ⟨fits_of_ofFields? laid reduced size, rfl, (Reducer.ofKind?_spec found).1, rfl⟩

/-- The details of a chart over an index. -/
def details (chart : Chart) (index : IndexName) : Details where
  index := index
  size := chart.size
  elementKey := chart.elementKey
  label := chart.label
  x := chart.axis.primary
  y := match chart.axis with
    | .single _ => ""
    | .scatter _ y _ => y
  color := match chart.axis with
    | .single _ => ""
    | .scatter _ _ color => color
  reduced := chart.reducer.field?.getD ""

theorem reducer_details (chart : Chart) (index : IndexName) :
    (chart.details index).reducer chart.reducer.kind = chart.reducer := by
  cases reduced : chart.reducer <;> simp [details, Details.reducer, Reducer.kind, Reducer.field?, reduced]

theorem projection_details (fits : chart.Fits) (index : IndexName) :
    (chart.details index).projection chart.kind = chart.projection := by
  obtain ⟨kind, axis, reducer, size⟩ := chart
  cases axis with
  | single field => cases kind <;> first | contradiction | rfl
  | scatter x y color => cases kind <;> first | contradiction | rfl

theorem program_details (fits : chart.Fits) (index : IndexName) :
    (chart.details index).program chart.kind chart.reducer.kind = Program.ofChart chart index := by
  rw [Details.program, projection_details fits, reducer_details]
  rfl

/-- The field that the reducer of a chart reads, as often as its program does. -/
def reducedFields (chart : Chart) : List String :=
  match chart.reducer with
  | .sum field => [field]
  | .mean field => [field, field]
  | .cumulativeSum field => [field]
  | _ => []

/-- The texts that the program of a chart has literals of, in the order of the literals. -/
def literalTexts (chart : Chart) : List String :=
  [chart.elementKey, Text.Html.escape chart.label] ++ chart.axis.fields ++ chart.reducedFields ++
    [chart.axis.primary, chart.axis.primary]

theorem gaps_dimension (fits : chart.Fits) (index : IndexName) :
    ((Program.dimension chart.kind).filterMap Part.text?).map (chart.details index).text =
      chart.axis.fields := by
  obtain ⟨kind, axis, reducer, size⟩ := chart
  cases axis with
  | single field => cases kind <;> first | contradiction | rfl
  | scatter x y color => cases kind <;> first | contradiction | rfl

theorem gaps_groups (chart : Chart) (index : IndexName) :
    ((Program.groups chart.reducer.kind).filterMap Part.text?).map (chart.details index).text =
      chart.reducedFields := by
  obtain ⟨kind, axis, reducer, size⟩ := chart
  cases reducer <;> rfl

theorem gaps_drawing (kind : ChartKind) : (Program.drawing kind).filterMap Part.text? = [] := by
  cases kind <;> rfl

theorem gaps_layout (kind : ChartKind) : (Program.layout kind).filterMap Part.text? = [] := by
  cases kind <;> rfl

theorem gaps_reading (reducer : ReducerKind) :
    (Program.reading reducer).filterMap Part.text? = [] := by
  cases reducer <;> rfl

theorem map_text_gaps (fits : chart.Fits) (index : IndexName) :
    ((Program.spelling chart.kind chart.reducer.kind).parts.filterMap Part.text?).map
      (chart.details index).text = chart.literalTexts := by
  have first : Program.container.filterMap Part.text? = [.elementKey, .label] := rfl
  have probed : Program.probes.filterMap Part.text? = [.x, .x] := rfl
  rw [Program.parts_spelling]
  simp only [List.filterMap_append, List.map_append, gaps_dimension fits, gaps_groups, first,
    probed, gaps_drawing, gaps_layout, gaps_reading, List.append_nil, literalTexts,
    List.append_assoc]
  rfl

theorem reducer_eq {other : Chart} (kinds : other.reducer.kind = chart.reducer.kind)
    (same : other.reducedFields = chart.reducedFields) : other.reducer = chart.reducer := by
  unfold reducedFields at same
  cases first : chart.reducer <;> cases second : other.reducer <;>
    simp_all [Reducer.kind]

theorem length_fields (fits : chart.Fits) : chart.axis.fields.length = chart.kind.arity := by
  obtain ⟨kind, axis, reducer, size⟩ := chart
  cases axis with
  | single field => cases kind <;> first | contradiction | rfl
  | scatter x y color => cases kind <;> first | contradiction | rfl

/-- Charts of one kind, one kind of reducer and one size differ in a literal. -/
theorem eq_of_literalTexts {other : Chart} (fits : chart.Fits) (fitted : other.Fits)
    (kinds : other.kind = chart.kind) (reducers : other.reducer.kind = chart.reducer.kind)
    (sizes : other.size = chart.size) (same : other.literalTexts = chart.literalTexts) :
    other = chart := by
  have long : other.axis.fields.length = chart.axis.fields.length := by
    rw [length_fields fits, length_fields fitted, kinds]
  simp only [literalTexts, List.append_assoc] at same
  obtain ⟨_, behind⟩ := List.append_inj same rfl
  obtain ⟨fields, behind⟩ := List.append_inj behind long
  have reduced := reducer_eq reducers (List.append_inj' behind rfl).1
  have axis := Axis.fields_injective fields
  obtain ⟨kind, _, _, size⟩ := chart
  obtain ⟨_, _, _, _⟩ := other
  obtain rfl : _ = kind := kinds
  obtain rfl : _ = size := sizes
  obtain rfl := axis
  obtain rfl := reduced
  rfl

end Chart

namespace Program

variable {kind : ChartKind} {fields : List String} {reducer : ReducerKind}
  {reducerField : Option String} {size : ChartSize} {chart other : Chart} {index second : IndexName}

/-- What a program is outside the literals of its names: it depends on the kind of the chart and of
its reducer, the size and the name of the index. -/
def outline (kind : ChartKind) (reducer : ReducerKind) (size : ChartSize) (index : IndexName) :
    Outline :=
  (molds kind reducer).flatMap (Mold.outline (WordGap.word index size))

theorem ofText_text (fits : chart.Fits) (index : IndexName) :
    Lexeme.ofText (ofChart chart index).text =
      (molds chart.kind chart.reducer.kind).flatMap (Mold.lexemes (chart.details index)) := by
  rw [← Chart.program_details fits index, Lexeme.ofText]
  have spelled := (spelling chart.kind chart.reducer.kind).toList_text (chart.details index)
  exact (congrArg (Lexeme.read .code) spelled).trans (Part.read_flatMap_chars _)

theorem eq_of_map_mark {word second : List Char}
    (same : word.map Lexeme.mark = second.map Lexeme.mark) : word = second :=
  List.map_injective_iff.mpr (fun _ _ => Lexeme.mark.inj) same

theorem eq_of_literalBody {text other : String}
    (same : Json.literalBody text.toList = Json.literalBody other.toList) : text = other := by
  have read := Json.ofText_literalBody text
  rw [same, Json.ofText_literalBody] at read
  exact (Except.ok.inj read).symm

theorem word_mem_moldsOf {parts : List Part} {gap : WordGap} (member : .word gap ∈ parts) :
    .word gap ∈ moldsOf parts :=
  List.mem_flatMap.mpr ⟨_, member, List.mem_singleton_self _⟩

theorem text_mem_moldsOf {parts : List Part} {gap : TextGap}
    (member : gap ∈ parts.filterMap Part.text?) : .text gap ∈ moldsOf parts := by
  obtain ⟨part, own, shown⟩ := List.mem_filterMap.mp member
  cases part with
  | code chars closed => contradiction
  | word gap => contradiction
  | text gap =>
      obtain rfl := Option.some.inj shown
      exact List.mem_flatMap.mpr ⟨_, own, List.mem_singleton_self _⟩

theorem eq_of_digits {n m : Nat} (same : Numeral.digits n = Numeral.digits m) : n = m := by
  rw [← Numeral.valueOf_digits n, same, Numeral.valueOf_digits]

theorem word_mem_molds (kind : ChartKind) (reducer : ReducerKind) (gap : WordGap) :
    .word gap ∈ molds kind reducer := by
  have named : .word .index ∈ dimension kind := by cases kind <;> decide
  have wide : .word .width ∈ layout kind := List.mem_append_right _ (by decide)
  have high : .word .height ∈ layout kind := List.mem_append_right _ (by decide)
  apply word_mem_moldsOf
  rw [parts_spelling]
  cases gap with
  | index => simp only [List.mem_append, named, true_or, or_true]
  | width => simp only [List.mem_append, wide, true_or, or_true]
  | height => simp only [List.mem_append, high, true_or, or_true]

/-- Charts whose programs have one text are the same, over one index. -/
theorem eq_of_text_eq (fits : chart.Fits) (fitted : other.Fits)
    (same : (ofChart other second).text = (ofChart chart index).text) :
    other = chart ∧ second = index := by
  have lexemes := congrArg Lexeme.ofText same
  rw [ofText_text fits, ofText_text fitted] at lexemes
  obtain ⟨kinds, reducers⟩ | clashing :=
    eq_or_clash_molds other.kind chart.kind other.reducer.kind chart.reducer.kind
  · rw [kinds, reducers] at lexemes
    have gaps := Mold.lexemes_eq_of_flatMap_eq
      ⟨_, (sound_molds chart.kind chart.reducer.kind).delimited⟩ lexemes
    have words (gap : WordGap) : (other.details second).word gap = (chart.details index).word gap :=
      eq_of_map_mark (gaps _ (word_mem_molds _ _ gap))
    have texts : other.literalTexts = chart.literalTexts := by
      rw [← Chart.map_text_gaps fits index, ← Chart.map_text_gaps fitted second, kinds, reducers]
      refine List.map_congr_left fun gap member => ?_
      have lexeme := gaps (.text gap) (text_mem_moldsOf member)
      exact eq_of_literalBody (Lexeme.literal.inj (List.singleton_inj.mp lexeme)).2
    have sizes : other.size = chart.size := by
      have wide := eq_of_digits (words .width)
      have high := eq_of_digits (words .height)
      cases first : chart.size
      cases later : other.size
      simp only [Chart.details, first, later] at wide high
      rw [UInt32.toNat_inj.mp wide, UInt32.toNat_inj.mp high]
    have named : second = index := by
      obtain ⟨text, valid⟩ := index
      obtain ⟨_, _⟩ := second
      obtain rfl : _ = text := String.toList_inj.mp (words .index)
      rfl
    exact ⟨Chart.eq_of_literalTexts fits fitted kinds reducers sizes texts, named⟩
  · exact absurd lexemes (Mold.flatMap_ne_of_clash ⟨_, (sound_molds _ _).delimited⟩
      ⟨_, (sound_molds _ _).delimited⟩ clashing)

/-- The text of a chart's program, read back. -/
theorem lexemes_text (index : IndexName)
    (made : Chart.ofParts kind fields reducer reducerField size = .ok chart) :
    (∃ bodies : List (List Char),
      Lexeme.ofText (ofChart chart index).text = (outline kind reducer size index).fill bodies ∧
        (outline kind reducer size index).count none = bodies.length ∧
        bodies.map (fun body =>
          Json.ofText Json.Reader.text (String.ofList ('"' :: body ++ ['"']))) =
            chart.literalTexts.map .ok) ∧
      (Lexeme.ofText (ofChart chart index).text).all Lexeme.isUnit = true ∧
      Lexeme.Balanced (Lexeme.ofText (ofChart chart index).text) ∧
      ∀ {kind fields reducer reducerField size other second},
        Chart.ofParts kind fields reducer reducerField size = .ok other →
        (ofChart other second).text = (ofChart chart index).text →
        other = chart ∧ second = index := by
  obtain ⟨fits, rfl, rfl, rfl⟩ := Chart.ofParts_eq_ok made
  have read := ofText_text fits index
  have sound := sound_molds chart.kind chart.reducer.kind
  refine ⟨⟨((molds chart.kind chart.reducer.kind).filterMap Mold.text?).map
    (Mold.body (chart.details index)), ?_, ?_, ?_⟩, ?_, ?_, ?_⟩
  · rw [read, Mold.flatMap_lexemes]
    rfl
  · rw [outline, Mold.count_outline, List.length_map]
  · rw [molds, moldsOf, Mold.filterMap_text?, ← Chart.map_text_gaps fits index, List.map_map,
      List.map_map]
    exact List.map_congr_left fun gap _ => Json.ofText_literalBody _
  · rw [read]
    exact Mold.isUnit_flatMap_lexemes sound.units
  · rw [Lexeme.Balanced, read, Mold.due?_flatMap_lexemes]
    exact sound.balanced
  · intro _ _ _ _ _ other second formed same
    exact eq_of_text_eq fits (Chart.ofParts_eq_ok formed).1 same

/-- Quotes, brackets and backslashes in names stay within their literals. -/
theorem lexemes_text_quoted :
    ∃ chart bodies,
      Chart.ofParts .rowChart ["\"];"] .sum (some "\\\n") .standard = .ok chart ∧
        Lexeme.ofText (ofChart chart .standard).text =
          (outline .rowChart .sum .standard .standard).fill bodies ∧
        bodies.map (fun body =>
          Json.ofText Json.Reader.text (String.ofList ('"' :: body ++ ['"']))) =
            ["\"];_Sum", "&quot;];", "\"];", "\\\n", "\"];", "\"];"].map .ok ∧
        Lexeme.Balanced (Lexeme.ofText (ofChart chart .standard).text) := by
  have made : Chart.ofParts .rowChart ["\"];"] .sum (some "\\\n") .standard =
      .ok ⟨.rowChart, .single "\"];", .sum "\\\n", .standard⟩ := rfl
  have texts : Chart.literalTexts ⟨.rowChart, .single "\"];", .sum "\\\n", .standard⟩ =
      ["\"];_Sum", "&quot;];", "\"];", "\\\n", "\"];", "\"];"] := by
    decide +kernel
  obtain ⟨⟨bodies, filled, _, decoded⟩, _, balanced, _⟩ := lexemes_text .standard made
  rw [texts] at decoded
  exact ⟨_, bodies, made, filled, decoded, balanced⟩

end Program

end LinkedViews
