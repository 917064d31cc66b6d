import LinkedViews.Proofs.Json.OneLine
import LinkedViews.Proofs.Script.Sections

/-!
The layout of a script. Its sections are blocks, whatever is filled into them, so a reader that knows
the first line and the last one finds the sections again between its blank lines.
-/

namespace LinkedViews

open Text

variable {c : Char}

/-! ## Templates -/

theorem IndexName.isBlank_of_isPart (part : isPart c = true) : isBlank c = false := by
  simp only [isPart, Bool.or_eq_true, decide_eq_true_eq] at part
  obtain (letter | rfl) | rfl := part
  · simp only [Char.isAlphanum, Char.isAlpha, Char.isUpper, Char.isLower, Char.isDigit,
      Bool.or_eq_true, Bool.and_eq_true, decide_eq_true_eq, ge_iff_le, UInt32.le_iff_toNat_le,
      Char.toNat_val] at letter
    simp only [Char.reduceToNat] at letter
    simp only [isBlank, Bool.or_eq_false_iff, Bool.and_eq_false_iff, decide_eq_false_iff_not]
    omega
  · decide
  · decide

theorem IndexName.text_ne_nil (index : IndexName) : index.text.toList ≠ [] := by
  intro none
  have valid := index.valid
  rw [isValid, none] at valid
  contradiction

theorem Details.word_ne_nil (details : Details) (gap : WordGap) : details.word gap ≠ [] := by
  cases gap with
  | index => exact details.index.text_ne_nil
  | width => exact Numeral.digits_ne_nil _
  | height => exact Numeral.digits_ne_nil _

namespace Part

/-- Where a line stands behind a part. What is filled into a gap shows, and no line ends in it. -/
def step (line : Line) : Part → Option Line
  | code chars _ => line.after chars
  | word _ => some .inked
  | text _ => some .inked

theorem after_chars (details : Details) (part : Part) (line : Line) :
    line.after (part.chars details) = step line part := by
  cases part with
  | code chars closed => rfl
  | word gap =>
      obtain ⟨c, rest, shape⟩ := List.exists_cons_of_ne_nil (details.word_ne_nil gap)
      have all := details.all_isPart_word gap
      rw [shape, List.all_cons, Bool.and_eq_true, List.all_eq_true] at all
      rw [chars, shape]
      exact Line.after_shown (IndexName.isBlank_of_isPart all.1) (fun d member =>
        Line.single_of_shown (IndexName.isBlank_of_isPart (all.2 d member))) line
  | text gap =>
      have single := Json.isSingle_literal (details.text gap)
      rw [Json.toList_literal] at single
      rw [chars, Json.toList_literal]
      exact Line.after_shown rfl (isSingle_cons.mp single).2 line

theorem after_flatMap_chars (details : Details) (parts : List Part) (line : Line) :
    line.after (parts.flatMap (chars details)) = parts.foldlM step line := by
  induction parts generalizing line with
  | nil => rfl
  | cons part rest ih =>
      rw [List.flatMap_cons, Line.after_append, after_chars, List.foldlM_cons]
      simp only [ih]
      rfl

/-- Whether a template is one of blocks. -/
def AreBlock (parts : List Part) : Prop := parts.foldlM step .blank = some .inked

instance (parts : List Part) : Decidable (AreBlock parts) :=
  inferInstanceAs (Decidable (_ = _))

end Part

theorem Spelled.isBlock {text : Details → String} (spelled : Spelled text)
    (block : Part.AreBlock spelled.parts) (details : Details) : IsBlock (text details).toList := by
  rw [IsBlock, spelled.toList_text, Part.after_flatMap_chars]
  exact block

theorem SpelledList.isBlock {texts : Details → List String} (spelled : SpelledList texts)
    (blocks : ∀ parts ∈ spelled.parts, Part.AreBlock parts) (details : Details) :
    ∀ text ∈ texts details, IsBlock text.toList := by
  intro text member
  have chars : text.toList ∈ (texts details).map String.toList := List.mem_map_of_mem member
  rw [spelled.toList_texts] at chars
  obtain ⟨parts, own, shape⟩ := List.mem_map.mp chars
  rw [IsBlock, ← shape, Part.after_flatMap_chars]
  exact blocks parts own

/-! ## Programs -/

theorem Setting.areBlock_spelling (setting : Setting) :
    Part.AreBlock setting.spelling.parts := by
  cases setting <;> decide

theorem Setting.areBlock_spellings (settings : List Setting) :
    ∀ parts ∈ (Setting.spellings settings).parts, Part.AreBlock parts := by
  induction settings with
  | nil => exact fun _ member => absurd member List.not_mem_nil
  | cons setting rest ih => exact List.forall_mem_cons.mpr ⟨setting.areBlock_spelling, ih⟩

namespace Program

theorem areBlock_spelledCalls (kind : ChartKind) (reducer : ReducerKind) :
    ∀ parts ∈ (spelledCalls kind reducer).parts, Part.AreBlock parts := by
  have scaled : ∀ parts ∈ kind.scale.spellings.parts, Part.AreBlock parts := by
    cases kind.scale <;> decide
  have sized : ∀ parts ∈ [spelledSize.parts], Part.AreBlock parts := by decide
  have read : ∀ parts ∈ (spelledAccess reducer).parts, Part.AreBlock parts := by
    cases reducer <;> decide
  exact List.forall_mem_append.mpr ⟨List.forall_mem_append.mpr ⟨List.forall_mem_append.mpr
    ⟨scaled, Setting.areBlock_spellings kind.settings⟩, sized⟩, read⟩

variable (chart : Chart) (index : IndexName)

theorem calls_details :
    ((chart.details index).program chart.kind chart.reducer.kind).calls =
      (ofChart chart index).calls := by
  rw [calls, calls, Details.program, Chart.reducer_details]
  rfl

theorem isBlock_setup :
    IsBlock (Script.separated "\n    "
      (Script.code "chart.dimension(dim).group(group)" :: (ofChart chart index).calls) ++
        Script.code ";").text.toList := by
  have first : Part.AreBlock spelledStart.parts := by decide
  have each : ∀ call ∈ (Script.code "chart.dimension(dim).group(group)" ::
      (ofChart chart index).calls).map Script.text, IsBlock call.toList := by
    rw [← calls_details]
    exact (SpellingList.cons spelledStart (spelledCalls chart.kind chart.reducer.kind)).isBlock
      (List.forall_mem_cons.mpr ⟨first, areBlock_spelledCalls _ _⟩) (chart.details index)
  have feeds : Line.after .inked "\n    ".toList = some .blank := by decide
  have joined := isBlock_toList_intercalate feeds (by simp) each
  rw [Script.text_append, Script.text_separated, String.toList_append]
  exact joined.append (by simp [Script.text, Script.code, Piece.text, IsSingle])

theorem projection_details : ∃ kind, (chart.details index).projection kind = chart.projection := by
  obtain ⟨kind, axis, reducer, size⟩ := chart
  cases axis with
  | single field =>
      cases numeric : kind.isNumeric with
      | true => exact ⟨.barChart, by simp [Details.projection, Chart.projection, numeric]; rfl⟩
      | false => exact ⟨.rowChart, by simp [Details.projection, Chart.projection, numeric]; rfl⟩
  | scatter x y color => exact ⟨.scatterPlot, rfl⟩

/-- The program of a chart is a block, whatever the chart is made of. -/
theorem isBlock_text : IsBlock (ofChart chart index).text.toList := by
  -- The projection goes by the axis where the axis does not fit the kind, so its statement may have
  -- the template of another kind than the rest.
  obtain ⟨kind, projected⟩ := projection_details chart index
  have id := spelledId.isBlock (by decide) (chart.details index)
  have container := spelledContainer.isBlock (by decide) (chart.details index)
  have dimension := (spelledDimension kind).isBlock (by cases kind <;> decide) (chart.details index)
  have groups := (spelledGrouping chart.reducer.kind).isBlock
    (by cases chart.reducer.kind <;> decide) (chart.details index)
  have min := spelledMin.isBlock (by decide) (chart.details index)
  have max := spelledMax.isBlock (by decide) (chart.details index)
  have widget := (spelledChart chart.kind).isBlock (by cases chart.kind <;> decide)
    (chart.details index)
  beta_reduce at dimension groups
  rw [projected] at dimension
  rw [Chart.reducer_details] at groups
  rw [text, script, Script.text_separated]
  apply isBlock_toList_intercalate Line.after_feed (by simp [statements])
  rw [List.forall_mem_map, statements]
  simp only [List.forall_mem_cons]
  exact ⟨id, container, dimension, groups, min, max, widget, isBlock_setup chart index,
    fun _ none => absurd none List.not_mem_nil⟩

end Program

/-! ## Fragments -/

namespace Fragment

variable {fragment : Fragment}

theorem isSingle_margin : IsSingle margin.toList := by simp [IsSingle, margin]

theorem isSingle_onOneLine (text : String) : IsSingle (onOneLine text).toList := by
  intro c member
  rw [onOneLine, String.toList_ofList] at member
  obtain ⟨d, _, rfl⟩ := List.mem_map.mp member
  split
  · decide
  · rename_i other
    exact not_or.mp other

theorem isSingle_comment (fragment : Fragment) : IsSingle ('/' :: '/' :: fragment.comment) := by
  have slashes : IsSingle "// ".toList := by simp [IsSingle]
  exact slashes.append (isSingle_onOneLine fragment.label)

/-- A fragment is a block if its body is one. -/
theorem isBlock_text (body : IsBlock fragment.body.toList) : IsBlock fragment.text.toList := by
  have comment : IsBlock ('/' :: '/' :: fragment.comment) :=
    Line.after_shown rfl (isSingle_cons.mp fragment.isSingle_comment).2 .blank
  have opened : IsBlock opening.toList := by decide
  have closing : IsBlock "\x7d)();".toList := by decide
  rw [toList_text]
  exact comment.append_feed
    (opened.append_feed ((isBlock_indent isSingle_margin body).append_feed closing))

end Fragment

/-! ## Dashboards -/

namespace Dashboard

/-- What stands between the first line of a script and its last one, which ends in a line feed. -/
def enclosed? : List (List Char) → Option (List (List Char))
  | [] => none
  | first :: rest =>
    if first = Resources.opener.toList ∧ ["\x7d);".toList, []] <:+ rest then
      some (rest.take (rest.length - 2))
    else none

/-- Takes the sections of a script apart, at the blank lines between its first line and its last. -/
def sections? (script : String) : Option (List String) :=
  (enclosed? (script.toList.splitOn '\n')).bind (paragraphs? Fragment.margin)

variable {table : Table} {index : IndexName} {charts : List Chart} {dashboard : Dashboard}

theorem enclosed?_append (lines : List (List Char)) :
    enclosed? (Resources.opener.toList :: (lines ++ ["\x7d);".toList, []])) = some lines := by
  rw [enclosed?, if_pos ⟨rfl, List.suffix_append _ _⟩]
  simp

theorem splitOn_script (dashboard : Dashboard) (displayId : String) :
    (dashboard.script displayId).toList.splitOn '\n' = Resources.opener.toList ::
      ((String.intercalate "\n\n" ((dashboard.sections displayId).map
        (Text.indent Fragment.margin))).toList.splitOn '\n' ++ ["\x7d);".toList, []]) := by
  have opener : Resources.opener.toList.splitOn '\n' = [Resources.opener.toList] :=
    List.splitOn_eq_singleton (by decide)
  have ending : "\x7d);\n".toList.splitOn '\n' = ["\x7d);".toList, []] := by decide
  rw [toList_script, List.splitOn_append_cons_self, opener, List.splitOn_append_cons_self, ending]
  rfl

/-- A statement that assigns a value is a block if the value is on one line. -/
theorem isBlock_assigned {start value : String} (begun : IsBlock start.toList)
    (single : IsSingle value.toList) : IsBlock (start ++ value ++ ";").toList := by
  rw [String.toList_append, String.toList_append]
  exact (begun.append single).append (by simp [IsSingle])

theorem isBlock_records (table : Table) :
    IsBlock ("var " ++ Table.standardVariable ++ " = " ++ table.recordsText ++ ";").toList := by
  have starts : IsBlock ("var " ++ Table.standardVariable ++ " = ").toList := by decide
  exact isBlock_assigned starts table.isSingle_recordsText

theorem isBlock_binding (index : IndexName) :
    IsBlock ("var " ++ index.text ++ " = crossfilter(" ++ Table.standardVariable ++ ");").toList :=
  spelledBinding.isBlock (by decide) (details index)

theorem isBlock_summary (index : IndexName) : IsBlock (Fragment.summary index).text.toList :=
  Fragment.isBlock_text (spelledSummary.isBlock (by decide) (details index))

theorem isBlock_ofChart (chart : Chart) (index : IndexName) :
    IsBlock (Fragment.ofChart chart index).text.toList := by
  apply Fragment.isBlock_text
  rw [Fragment.ofChart]
  dsimp only
  exact Program.isBlock_text chart index

/-- The sections of a script are blocks if its fragments are. -/
theorem isBlock_sections (own : ∀ fragment ∈ dashboard.fragments, IsBlock fragment.text.toList)
    (displayId : String) : ∀ text ∈ dashboard.sections displayId, IsBlock text.toList := by
  have starts : IsBlock "var displayId = ".toList := by decide
  have display : IsBlock ("var displayId = " ++ Json.quote displayId ++ ";").toList :=
    isBlock_assigned starts (Json.isSingle_quote displayId)
  have records := isBlock_records dashboard.table
  have binding := isBlock_binding dashboard.index
  have summary := isBlock_summary dashboard.index
  have drawing : IsBlock "dc.renderAll();\ndc.redrawAll();".toList := by decide
  rw [sections]
  simp only [List.forall_mem_append, List.forall_mem_cons, List.forall_mem_map]
  refine ⟨⟨⟨display, records, binding, summary, ?_⟩, own⟩, drawing, ?_⟩
  · exact fun _ none => absurd none List.not_mem_nil
  · exact fun _ none => absurd none List.not_mem_nil

/-- A script whose fragments are blocks is taken apart into its sections. -/
theorem sections?_of_isBlock (own : ∀ fragment ∈ dashboard.fragments, IsBlock fragment.text.toList)
    (displayId : String) :
    sections? (dashboard.script displayId) = some (dashboard.sections displayId) := by
  rw [sections?, splitOn_script, enclosed?_append, Option.bind_some]
  exact paragraphs?_indent Fragment.isSingle_margin (by simp [sections])
    (isBlock_sections own displayId)

theorem sections_ofCharts (table : Table) (index : IndexName) (charts : List Chart)
    (displayId : String) :
    (⟨table, index, charts, charts.map fun chart => .ofChart chart index⟩ : Dashboard).sections
        displayId =
      ["var displayId = " ++ Json.quote displayId ++ ";",
        "var crossfilterData = " ++ table.recordsText ++ ";",
        "var " ++ index.text ++ " = crossfilter(crossfilterData);",
        (Fragment.summary index).text] ++
      charts.map (fun chart => (Fragment.ofChart chart index).text) ++
      ["dc.renderAll();\ndc.redrawAll();"] := by
  have data : "var " ++ Table.standardVariable ++ " = " = "var crossfilterData = " := by decide
  have source : " = crossfilter(" ++ (Table.standardVariable ++ ");") =
      " = crossfilter(crossfilterData);" := by
    decide
  rw [sections, data, List.map_map]
  simp only [String.append_assoc, source]
  rfl

/-- The sections of a script are found again, whatever is in cells, names and the display id: no
line of the script but an empty one is blank, and none has a carriage return in it. -/
theorem sections?_script (made : ofCharts table index charts = .ok dashboard) (displayId : String) :
    sections? (dashboard.script displayId) = some
        (["var displayId = " ++ Json.quote displayId ++ ";",
          "var crossfilterData = " ++ table.recordsText ++ ";",
          "var " ++ index.text ++ " = crossfilter(crossfilterData);",
          (Fragment.summary index).text] ++
        charts.map (fun chart => (Fragment.ofChart chart index).text) ++
        ["dc.renderAll();\ndc.redrawAll();"]) ∧
      ∀ line ∈ (dashboard.script displayId).toList.splitOn '\n', line = [] ∨ IsInked line := by
  obtain ⟨_, _, same⟩ := ofCharts_eq_ok.mp made
  have own : ∀ fragment ∈ dashboard.fragments, IsBlock fragment.text.toList := by
    rw [same]
    exact List.forall_mem_map.mpr fun chart _ => isBlock_ofChart chart index
  refine ⟨?_, ?_⟩
  · rw [sections?_of_isBlock own, same, sections_ofCharts]
  · have opener : IsBlock Resources.opener.toList := by decide
    have closer : IsBlock "\x7d);".toList := by decide
    rw [splitOn_script, List.forall_mem_cons, List.forall_mem_append, List.forall_mem_cons]
    have within := eq_nil_or_isInked Fragment.isSingle_margin (by simp [sections])
      (isBlock_sections own displayId)
    exact ⟨.inr (opener.isInked (by decide)), within, .inr (closer.isInked (by decide)), by simp⟩

/-- Line ends in a cell, in a name and in the display id. -/
theorem sections?_script_feeds :
    ∃ dashboard, ofCharts ⟨[⟨"a\n\r\n", .text⟩], [[.text "\n\n"]]⟩ .standard
        [⟨.rowChart, .single "a\n\r\n", .none, .standard⟩] = .ok dashboard ∧
      sections? (dashboard.script "\n\n") = some
        ["var displayId = \"\\n\\n\";",
          "var crossfilterData = [\x7b\"a\\n\\r\\n\":\"\\n\\n\"\x7d];",
          "var cf = crossfilter(crossfilterData);",
          (Fragment.summary .standard).text,
          (Fragment.ofChart ⟨.rowChart, .single "a\n\r\n", .none, .standard⟩ .standard).text,
          "dc.renderAll();\ndc.redrawAll();"] := by
  obtain ⟨dashboard, made⟩ : ∃ dashboard,
      ofCharts ⟨[⟨"a\n\r\n", .text⟩], [[.text "\n\n"]]⟩ .standard
        [⟨.rowChart, .single "a\n\r\n", .none, .standard⟩] = .ok dashboard := ⟨_, rfl⟩
  have display : Json.quote "\n\n" = "\"\\n\\n\"" := by decide
  have records : Table.recordsText ⟨[⟨"a\n\r\n", .text⟩], [[.text "\n\n"]]⟩ =
      "[\x7b\"a\\n\\r\\n\":\"\\n\\n\"\x7d]" := by
    decide +kernel
  have read := (sections?_script made "\n\n").1
  rw [display, records] at read
  exact ⟨dashboard, made, read⟩

end Dashboard

end LinkedViews
