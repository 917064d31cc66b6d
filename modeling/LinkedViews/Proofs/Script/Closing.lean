import LinkedViews.Dashboard.Basic
import LinkedViews.Dashboard.DisplayId
import LinkedViews.Proofs.Dashboard.Acceptance
import LinkedViews.Proofs.Json.Literal
import LinkedViews.Proofs.Text.ClosingTag

/-!
The script of a dashboard stands in an element of a page. Its literals and its records cannot end
that element, whatever they are made from; the comments over its fragments can.
-/

namespace LinkedViews

open Text

/-! ## Literals and records -/

theorem getLast_quoteChars (text : List Char) :
    (Json.quoteChars text).getLast? = some '"' := by
  rw [Json.quoteChars, List.getLast?_concat]

theorem guarded_literal (text : String) : Guarded (Json.literal text) := by
  rw [Json.literal, Json.scriptText, Guarded, String.toList_ofList]
  apply isGuarded_guardTags
  rw [Json.compactChars, Json.scalarChars, getLast_quoteChars]
  decide

theorem guarded_recordsText (table : Table) : Guarded table.recordsText := by
  rw [Table.recordsText, Json.scriptText, Guarded, String.toList_ofList]
  apply isGuarded_guardTags
  rw [Table.records, Json.compactChars, List.getLast?_concat]
  decide

/-! ## Programs -/

namespace Script

variable {script front back : Script}

/-- Whether no piece of a script begins a tag, whatever stands behind it. -/
def IsGuarded (script : Script) : Prop := ∀ piece ∈ script, Guarded piece.text

theorem IsGuarded.append (first : IsGuarded front) (second : IsGuarded back) :
    IsGuarded (front ++ back) := by
  intro piece member
  rcases List.mem_append.mp member with own | own
  · exact first piece own
  · exact second piece own

theorem IsGuarded.code {text : String} (guarded : Guarded text) :
    IsGuarded (Script.code text) := by
  intro piece member
  obtain rfl := List.mem_singleton.mp member
  exact guarded

theorem IsGuarded.codeLines {lines : List String} (all : lines.Forall Guarded) :
    IsGuarded (Script.codeLines lines) :=
  .code (.intercalate (.ofList rfl) all)

theorem IsGuarded.literal (text : String) : IsGuarded [.literal text] := by
  intro piece member
  obtain rfl := List.mem_singleton.mp member
  exact guarded_literal text

theorem IsGuarded.access {record : String} (field : String) (guarded : Guarded record) :
    IsGuarded (Script.access record field) :=
  .append (.append (.append (.code guarded) (.code (.ofList rfl))) (.literal field))
    (.code (.ofList rfl))

theorem IsGuarded.function {argument : String} (named : Guarded argument)
    (value : IsGuarded script) : IsGuarded (Script.function argument script) := by
  have opening : Guarded ("function(" ++ argument ++ ") \x7b return ") :=
    .append (.append (.ofList rfl) named) (.ofList rfl)
  exact .append (.append (.code opening) value) (.code (.ofList rfl))

theorem IsGuarded.separated {separator : String} {scripts : List Script}
    (between : Guarded separator) (all : scripts.Forall IsGuarded) :
    IsGuarded (Script.separated separator scripts) := by
  induction scripts with
  | nil => exact fun piece member => absurd member List.not_mem_nil
  | cons script rest ih =>
      obtain ⟨own, others⟩ := (List.forall_cons _ script rest).mp all
      have later := ih others
      cases rest with
      | nil => exact own
      | cons next more => exact (own.append (.code between)).append later

theorem guarded_text (guarded : IsGuarded script) : Guarded script.text := by
  apply Guarded.join
  intro part member
  obtain ⟨piece, own, rfl⟩ := List.mem_map.mp member
  exact guarded piece own

end Script

/-- An identifier has no character of a tag. -/
theorem IndexName.guarded_text (index : IndexName) : Guarded index.text := by
  have valid := index.valid
  simp only [IndexName.isValid, Bool.and_eq_true] at valid
  apply isGuarded_of_absent
  intro member
  cases shown : index.text.toList with
  | nil => simp [shown] at member
  | cons c rest =>
      have identifier := valid.1.1
      rw [shown] at identifier member
      simp only [IndexName.isIdentifier, Bool.and_eq_true, List.all_eq_true] at identifier
      rcases List.mem_cons.mp member with rfl | inside
      · exact absurd identifier.1 (by decide)
      · exact absurd (identifier.2 _ inside) (by decide)

theorem Numeral.guarded_ofNat (n : Nat) : Guarded (Numeral.ofNat n) := by
  rw [Numeral.ofNat, Guarded, String.toList_ofList]
  exact isGuarded_of_absent fun member => absurd (Numeral.isDigit_of_mem_digits member) (by decide)

theorem Setting.guarded_colors : Guarded (String.intercalate ", " Setting.colors) := by
  refine .intercalate (.ofList rfl) ?_
  and_intros <;> exact .ofList rfl

theorem Setting.isGuarded_script (setting : Setting) : setting.script.IsGuarded := by
  cases setting with
  | elasticX => exact .code (.ofList rfl)
  | elasticY => exact .code (.ofList rfl)
  | renderArea => exact .code (.ofList rfl)
  | margins => exact .code (.ofList rfl)
  | existenceFilter =>
      exact .append (.append (.code (.ofList rfl))
        (.function (.ofList rfl) (.code (.ofList rfl)))) (.code (.ofList rfl))
  | categoryColors =>
      refine .append (.append (.code (.ofList rfl))
        (.function (.ofList rfl) (.code (.ofList rfl)))) (.codeLines ?_)
      exact ⟨.ofList rfl, .append (.append (.ofList rfl) Setting.guarded_colors) (.ofList rfl)⟩
  | pairFilter =>
      refine .codeLines ?_
      and_intros <;> exact .ofList rfl

theorem Scale.isGuarded_script {scale : Scale} {script : Script}
    (scaled : scale.script? = some script) : script.IsGuarded := by
  cases scale with
  | none => contradiction
  | wholeNumbers =>
      obtain rfl := Option.some.inj scaled
      refine .codeLines ?_
      and_intros <;> exact .ofList rfl
  | linear =>
      obtain rfl := Option.some.inj scaled
      exact .code (.ofList rfl)
  | time =>
      obtain rfl := Option.some.inj scaled
      exact .code (.ofList rfl)

theorem ValueAccess.isGuarded_setting {access : ValueAccess} {script : Script}
    (set : access.setting? = some script) : script.IsGuarded := by
  have accessor {chars : List Char} (guarded : isGuarded chars = true) :
      (Script.code ".valueAccessor(" ++ Script.function "p" (Script.code (String.ofList chars)) ++
        Script.code ")").IsGuarded :=
    .append (.append (.code (.ofList rfl))
      (.function (.ofList rfl) (.code (.ofList guarded)))) (.code (.ofList rfl))
  cases access with
  | standard => contradiction
  | value =>
      obtain rfl := Option.some.inj set
      exact accessor (by decide)
  | average =>
      obtain rfl := Option.some.inj set
      exact accessor (by decide)

theorem ChartSize.isGuarded_script (size : ChartSize) : size.script.IsGuarded := by
  have width := Numeral.guarded_ofNat size.width.toNat
  have height := Numeral.guarded_ofNat size.height.toNat
  exact .code (.append (.append (.append (.append (.ofList rfl) width)
    (.ofList rfl)) height) (.ofList rfl))

theorem Projection.isGuarded_script (projection : Projection) : projection.script.IsGuarded := by
  have access (field : String) : (Script.access "d" field).IsGuarded :=
    .access field (.ofList rfl)
  have argument : Guarded "d" := .ofList rfl
  cases projection with
  | raw field => exact .function argument (access field)
  | numeric field =>
      exact .function argument (.append (.code (.ofList rfl)) (access field))
  | triple x y color =>
      refine .function argument ?_
      exact .append (.append (.append (.append (.append (.append (.code (.ofList rfl)) (access x))
        (.code (.ofList rfl))) (access y)) (.code (.ofList rfl))) (access color))
        (.code (.ofList rfl))

namespace Grouping

theorem isGuarded_meanStep (count sum field : String) (counted : Guarded count)
    (summed : Guarded sum) : (meanStep count sum field).IsGuarded := by
  refine .append (.append (.codeLines ?_) (.access field (.ofList rfl))) (.codeLines ?_)
  · exact ⟨.ofList rfl, .append (.append (.ofList rfl) counted) (.ofList rfl),
      .append (.append (.ofList rfl) summed) (.ofList rfl)⟩
  · and_intros <;> exact .ofList rfl

theorem isGuarded_expression (grouping : Grouping) : grouping.expression.IsGuarded := by
  induction grouping with
  | keys => exact .code (.ofList rfl)
  | count => exact .code (.ofList rfl)
  | sum field =>
      refine .append (.append (.code (.ofList rfl)) ?_) (.code (.ofList rfl))
      exact .function (.ofList rfl) (.append (.code (.ofList rfl)) (.access field (.ofList rfl)))
  | mean field =>
      have added := isGuarded_meanStep "++" "+=" field (.ofList rfl) (.ofList rfl)
      have removed := isGuarded_meanStep "--" "-=" field (.ofList rfl) (.ofList rfl)
      refine .append (.append (.append (.code (.ofList rfl)) added) removed) (.codeLines ?_)
      and_intros <;> exact .ofList rfl
  | cumulative inner ih => exact ih

theorem isGuarded_totals : totals.IsGuarded := by
  refine .codeLines ?_
  and_intros <;> exact .ofList rfl

theorem isGuarded_script (grouping : Grouping) : grouping.script.IsGuarded := by
  have plain (grouping : Grouping) :
      (Script.code "var group = " ++ grouping.expression ++ Script.code ";").IsGuarded :=
    .append (.append (.code (.ofList rfl)) grouping.isGuarded_expression) (.code (.ofList rfl))
  cases grouping with
  | cumulative inner =>
      exact .append (.append (.code (.ofList rfl)) inner.isGuarded_expression) isGuarded_totals
  | keys => exact plain keys
  | count => exact plain count
  | sum field => exact plain (sum field)
  | mean field => exact plain (mean field)

end Grouping

theorem ChartKind.guarded_widget (kind : ChartKind) : Guarded kind.widget := by
  cases kind <;> exact .ofList rfl

namespace Program

theorem isGuarded_calls (program : Program) : program.calls.Forall Script.IsGuarded :=
  List.forall_iff_forall_mem.mpr <|
    forall_mem_calls (fun _ => Scale.isGuarded_script) (fun setting _ => setting.isGuarded_script)
      program.size.isGuarded_script fun _ => ValueAccess.isGuarded_setting

/-- Names from data stand in literals of a program only. -/
theorem guarded_text {program : Program} (named : Guarded program.widget) :
    Guarded program.text := by
  apply Script.guarded_text
  refine .separated (.ofList rfl) ?_
  have probe {opening closing : List Char} (first : isGuarded opening = true)
      (second : isGuarded closing = true) :
      Script.IsGuarded [.code (String.ofList opening), .literal program.probeField,
        .code (String.ofList closing)] :=
    .append (.append (.code (.ofList first)) (.literal _)) (.code (.ofList second))
  have title : Script.IsGuarded [.literal (Html.escape program.label),
      .code " + '</strong><div style=\"clear: both;\"></div></div>');"] :=
    .append (.literal _) (.code (.ofList rfl))
  have id : Script.IsGuarded [.literal program.elementKey, .code ";"] :=
    .append (.literal _) (.code (.ofList rfl))
  have dimension : Guarded ("var dim = " ++ program.index.text ++ ".dimension(") :=
    .append (.append (.ofList rfl) program.index.guarded_text) (.ofList rfl)
  have chart : Guarded ("var chart = dc." ++ program.widget ++ "(\"#\" + chartId);") :=
    .append (.append (.ofList rfl) named) (.ofList rfl)
  have calls : (Script.code "chart.dimension(dim).group(group)" :: program.calls).Forall
      Script.IsGuarded :=
    (List.forall_cons ..).mpr ⟨.code (.ofList rfl), program.isGuarded_calls⟩
  exact ⟨.append (.code (.ofList rfl)) id,
    .append (.code (.ofList rfl)) title,
    .append (.append (.code dimension) program.projection.isGuarded_script) (.code (.ofList rfl)),
    program.grouping.isGuarded_script,
    probe (by decide) (by decide),
    probe (by decide) (by decide),
    .code chart,
    .append (.separated (.ofList rfl) calls) (.code (.ofList rfl))⟩

end Program

/-! ## Fragments -/

namespace Fragment

theorem endsScript_onOneLine (text : String) :
    EndsScript (onOneLine text).toList ↔ EndsScript text.toList := by
  rw [onOneLine, String.toList_ofList]
  apply endsScript_map
  intro c
  by_cases ending : c = '\n' ∨ c = '\r'
  · rw [if_pos ending]
    rcases ending with rfl | rfl
    · exact .inr (by decide)
    · exact .inr (by decide)
  · exact .inl (if_neg ending)

theorem absent_margin : ∀ c ∈ margin.toList, c.toLower ∉ closing := by
  simp [margin, closing]

/-- A fragment ends a script element only by its comment or its body. -/
theorem endsScript_text (fragment : Fragment) :
    EndsScript fragment.text.toList ↔
      EndsScript fragment.label.toList ∨ EndsScript fragment.body.toList := by
  have shape : fragment.text.toList =
      ['/', '/'] ++ ' ' :: ((onOneLine fragment.label).toList ++ '\n' ::
        ("(function() \x7b".toList ++ '\n' :: ((indent margin fragment.body).toList ++ '\n' ::
          "\x7d)();".toList))) := by
    simp [Fragment.text]
  have comment : ¬ EndsScript ['/', '/'] := by decide
  have opening : ¬ EndsScript "(function() \x7b".toList :=
    Guarded.not_endsScript (.ofList rfl)
  have ending : ¬ EndsScript "\x7d)();".toList :=
    Guarded.not_endsScript (.ofList rfl)
  rw [shape, endsScript_append_cons (by decide), endsScript_append_cons (by decide),
    endsScript_append_cons (by decide), endsScript_append_cons (by decide),
    endsScript_onOneLine, endsScript_indent absent_margin]
  simp only [comment, opening, ending, false_or, or_false]

end Fragment

theorem Chart.endsScript_caption (chart : Chart) :
    EndsScript chart.caption.toList ↔ ∃ field ∈ chart.axis.fields, EndsScript field.toList := by
  have shape : chart.caption.toList = chart.kind.name.toList ++ '(' ::
      ([',', ' '].intercalate (chart.axis.fields.map String.toList) ++ ')' :: []) := by
    simp [caption, title, String.toList_intercalate]
  have name : ¬ EndsScript chart.kind.name.toList := by
    cases chart.kind <;> exact Guarded.not_endsScript (.ofList rfl)
  have comma : ∀ c ∈ [',', ' '], c.toLower ∉ closing := by simp [closing]
  rw [shape, endsScript_append_cons (by decide), endsScript_append_cons (by decide),
    endsScript_intercalate (by simp) comma, exists_mem_map, or_iff_right name,
    or_iff_left not_endsScript_nil]

theorem Fragment.endsScript_ofChart (chart : Chart) (index : IndexName) :
    EndsScript (Fragment.ofChart chart index).text.toList ↔
      ∃ field ∈ chart.axis.fields, EndsScript field.toList := by
  have widget : Guarded (Program.ofChart chart index).widget := chart.kind.guarded_widget
  have parts : Fragment.ofChart chart index =
      ⟨chart.caption, some chart.elementKey, (Program.ofChart chart index).text⟩ := rfl
  have body := (Program.guarded_text widget).not_endsScript
  rw [Fragment.endsScript_text, parts, or_iff_left body, Chart.endsScript_caption]

theorem Fragment.not_endsScript_summary (index : IndexName) :
    ¬ EndsScript (Fragment.summary index).text.toList := by
  have label : ¬ EndsScript "Summary".toList :=
    Guarded.not_endsScript (.ofList rfl)
  have body : Guarded (Fragment.summary index).body := by
    refine .intercalate (.ofList rfl) ?_
    exact ⟨.append (.append (.ofList rfl) index.guarded_text) (.ofList rfl),
      .append (.ofList rfl) (.ofList rfl),
      .ofList rfl, .ofList rfl, .ofList rfl,
      .append (.append (.ofList rfl) index.guarded_text) (.ofList rfl)⟩
  rw [Fragment.endsScript_text, or_iff_left (body.not_endsScript)]
  exact label

/-! ## Dashboards -/

theorem Json.guarded_quote {text : String} (absent : '<' ∉ text.toList) :
    Guarded (Json.quote text) := by
  rw [Json.quote, Guarded, String.toList_ofList]
  apply isGuarded_of_absent
  simp only [Json.quoteChars, List.mem_append, List.mem_cons, List.mem_flatMap, List.not_mem_nil]
  rintro ((mark | ⟨c, inside, member⟩) | mark | none)
  · exact absurd mark (by decide)
  · exact absent (Json.eq_of_mem_escapeChar member ▸ inside)
  · exact absurd mark (by decide)
  · exact none

theorem Resources.guarded_opener : Guarded Resources.opener := by
  have names : Guarded (Json.array (Resources.modules.map Json.text)).compact :=
    .ofList (by decide +kernel)
  have parameters : Guarded (String.intercalate ", " Resources.modules) := by
    refine .intercalate (.ofList rfl) ?_
    and_intros <;> exact .ofList rfl
  exact .append (.append (.append (.append (.ofList rfl) names) (.ofList rfl)) parameters)
    (.ofList rfl)

namespace Dashboard

variable {table : Table} {index : IndexName} {charts : List Chart} {dashboard : Dashboard}
  {displayId : String}

theorem fragments_ofCharts (made : ofCharts table index charts = .ok dashboard) :
    dashboard.table = table ∧ dashboard.index = index ∧
      dashboard.fragments = charts.map fun chart => Fragment.ofChart chart index := by
  obtain ⟨_, _, rfl⟩ := ofCharts_eq_ok.mp made
  exact ⟨rfl, rfl, rfl⟩

theorem endsScript_sections (plain : '<' ∉ displayId.toList) :
    (∃ part ∈ dashboard.sections displayId, EndsScript part.toList) ↔
      ∃ fragment ∈ dashboard.fragments, EndsScript fragment.text.toList := by
  have id : Guarded ("var displayId = " ++ Json.quote displayId ++ ";") :=
    .append (.append (.ofList rfl) (Json.guarded_quote plain)) (.ofList rfl)
  have variable_ : Guarded Table.standardVariable := .ofList rfl
  have records : Guarded ("var " ++ Table.standardVariable ++ " = " ++
      dashboard.table.recordsText ++ ";") :=
    .append (.append (.append (.append (.ofList rfl) variable_) (.ofList rfl))
      (guarded_recordsText _)) (.ofList rfl)
  have binding : Guarded ("var " ++ dashboard.index.text ++ " = crossfilter(" ++
      Table.standardVariable ++ ");") :=
    .append (.append (.append (.append (.ofList rfl) dashboard.index.guarded_text)
      (.ofList rfl)) variable_) (.ofList rfl)
  have summary := Fragment.not_endsScript_summary dashboard.index
  have drawing : Guarded "dc.renderAll();\ndc.redrawAll();" := .ofList rfl
  simp only [sections, List.mem_append, List.mem_cons, List.not_mem_nil, or_false, or_and_right,
    exists_or, exists_eq_left, exists_mem_map, summary, id.not_endsScript,
    records.not_endsScript, binding.not_endsScript,
    drawing.not_endsScript, false_or]

theorem endsScript_script (plain : '<' ∉ displayId.toList) :
    EndsScript (dashboard.script displayId).toList ↔
      ∃ fragment ∈ dashboard.fragments, EndsScript fragment.text.toList := by
  have shape : (dashboard.script displayId).toList = Resources.opener.toList ++ '\n' ::
      (['\n', '\n'].intercalate (((dashboard.sections displayId).map
        (Text.indent Fragment.margin)).map String.toList) ++ '\n' :: "\x7d);\n".toList) := by
    simp [script, String.toList_intercalate]
  have opener := Resources.guarded_opener.not_endsScript
  have ending : ¬ EndsScript "\x7d);\n".toList :=
    Guarded.not_endsScript (.ofList rfl)
  have feeds : ∀ c ∈ ['\n', '\n'], c.toLower ∉ closing := by simp [closing]
  rw [shape, endsScript_append_cons (by decide), endsScript_append_cons (by decide),
    endsScript_intercalate (by simp) feeds, exists_mem_map, exists_mem_map,
    or_iff_right opener, or_iff_left ending, ← endsScript_sections plain]
  simp only [endsScript_indent Fragment.absent_margin]

/-- The script of charts can end its element only through the name of a field on an axis, which
stands unchanged in the comment over the chart's fragment. -/
theorem endsScript_script_ofCharts (made : ofCharts table index charts = .ok dashboard)
    (hexadecimal : ∀ c ∈ displayId.toList, DisplayId.isHexDigit c = true ∨ c = '-') :
    EndsScript (dashboard.script displayId).toList ↔
      ∃ chart ∈ charts, ∃ field ∈ chart.axis.fields, EndsScript field.toList := by
  have plain : '<' ∉ displayId.toList := by
    intro member
    rcases hexadecimal '<' member with digit | dash
    · exact absurd digit (by decide)
    · exact absurd dash (by decide)
  obtain ⟨_, _, fragments⟩ := fragments_ofCharts made
  rw [endsScript_script plain, fragments, exists_mem_map]
  simp only [Fragment.endsScript_ofChart]

/-- A column may be named like a closing tag; a chart of it ends the element of its script. -/
theorem endsScript_script_closingTag :
    ∃ dashboard, ofCharts ⟨[⟨"</script>", .integer⟩], [[.integer 1]]⟩ .standard
        [⟨.rowChart, .single "</script>", .count, .standard⟩] = .ok dashboard ∧
      EndsScript (dashboard.script "0b2f6f0e-9b0d-4c5e-8f3a-1d2c3b4a5968").toList := by
  refine ⟨_, rfl, (endsScript_script (by decide)).mpr ⟨_, List.mem_singleton_self _, ?_⟩⟩
  refine (Fragment.endsScript_ofChart _ _).mpr ⟨"</script>", List.mem_singleton_self _, ?_⟩
  exact ⟨[], ['>'], by decide⟩

theorem endsScript_script_plain :
    ∃ dashboard, ofCharts ⟨[⟨"<script>", .integer⟩], [[.integer 1]]⟩ .standard
        [⟨.rowChart, .single "<script>", .count, .standard⟩] = .ok dashboard ∧
      ¬ EndsScript (dashboard.script "0b2f6f0e-9b0d-4c5e-8f3a-1d2c3b4a5968").toList := by
  obtain ⟨dashboard, made⟩ : ∃ dashboard, ofCharts ⟨[⟨"<script>", .integer⟩], [[.integer 1]]⟩
      .standard [⟨.rowChart, .single "<script>", .count, .standard⟩] = .ok dashboard := ⟨_, rfl⟩
  have hexadecimal : ∀ c ∈ "0b2f6f0e-9b0d-4c5e-8f3a-1d2c3b4a5968".toList,
      DisplayId.isHexDigit c = true ∨ c = '-' := by simp [DisplayId.isHexDigit]
  refine ⟨dashboard, made, fun ends => ?_⟩
  obtain ⟨chart, charted, field, used, ends⟩ :=
    (endsScript_script_ofCharts made hexadecimal).mp ends
  obtain rfl := List.mem_singleton.mp charted
  obtain rfl := List.mem_singleton.mp used
  exact absurd ends (Guarded.not_endsScript (.ofList rfl))

end Dashboard

end LinkedViews
