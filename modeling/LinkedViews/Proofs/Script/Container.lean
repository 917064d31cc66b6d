import Mathlib.Data.List.Basic
import Mathlib.Data.List.Nodup
import LinkedViews.Dashboard.Basic
import LinkedViews.Proofs.Browser.Selector
import LinkedViews.Proofs.Dashboard.Acceptance
import LinkedViews.Proofs.Text.ClosingTag
import LinkedViews.Proofs.Text.Html

/-!
The containers of charts. The script of a chart appends the markup of a container, with an id made
from the element key, and looks the container up by the same id. Only the dots of a key are
replaced, so this finds the container exactly if the fields have no other character that stands for
something else in a selector.
-/

namespace LinkedViews

namespace Script

/-- A part of a sum of texts. What stands in single or double quotes has no character that would
have to be escaped. -/
inductive Summand where
  | quoted (mark : Char) (text : String)
  | literal (text : String)
  | bound (name : String)

namespace Summand

def text : Summand → String
  | quoted mark text => String.singleton mark ++ text ++ String.singleton mark
  | literal text => Json.literal text
  | bound name => name

def value (scope : String → String) : Summand → String
  | quoted _ text => text
  | literal text => text
  | bound name => scope name

end Summand

def sumText (summands : List Summand) : String :=
  String.intercalate " + " (summands.map Summand.text)

/-- The text that a sum is, with the given texts bound to names. -/
def sum (scope : String → String) (summands : List Summand) : String :=
  String.join (summands.map (Summand.value scope))

end Script

open Browser Script

theorem Script.toList_sum (scope : String → String) (summands : List Summand) :
    (sum scope summands).toList = summands.flatMap fun summand => (summand.value scope).toList := by
  rw [sum, String.toList_join, List.flatMap_map]

/-! ## What is appended -/

namespace Program

def idSum (program : Program) : List Summand :=
  [.quoted '"' "dc-", .bound "displayId", .quoted '"' "-chart-", .literal program.elementKey]

def markupSum (program : Program) : List Summand :=
  [.quoted '\'' "<div style=\"float: left;\" id=\"", .bound "chartId", .quoted '\'' "\"><strong>",
    .literal (Text.Html.escape program.label),
    .quoted '\'' "</strong><div style=\"clear: both;\"></div></div>"]

def selectorSum : List Summand := [.quoted '"' "#", .bound "chartId"]

/-- The statements of a program that make a container and look it up. -/
structure MakesContainer (program : Program) : Prop where
  id : program.statements[0]?.map Script.text =
    some ("var chartId = " ++ sumText program.idSum ++ ";")
  markup : program.statements[1]?.map Script.text =
    some ("element.append(" ++ sumText program.markupSum ++ ");")
  selector : program.statements[6]?.map Script.text =
    some ("var chart = dc." ++ program.widget ++ "(" ++ sumText selectorSum ++ ");")

/-- The id, the markup and the selector of a container are sums of texts in the program. -/
theorem makesContainer (program : Program) : program.MakesContainer := by
  refine ⟨congrArg some ?_, congrArg some ?_, congrArg some ?_⟩
  all_goals apply String.toList_inj.mp
  · simp [Script.text, Script.code, sumText, idSum, Summand.text, Piece.text]
  · simp [Script.text, Script.code, sumText, markupSum, Summand.text, Piece.text]
  · simp [Script.text, Script.code, sumText, selectorSum, Summand.text, Piece.text]

end Program

namespace Fragment

/-- The lines of the sum that the summary appends. -/
def summarySums : List (List Summand) :=
  [[.quoted '\'' "<div id=\"dc-", .bound "displayId",
      .quoted '\'' "-count\"><strong class=\"filter-count\">?</strong> selected "],
    [.quoted '\'' "out of <strong class=\"total-count\">?</strong> records</div>"],
    [.quoted '\'' "<div style=\"clear: both;\"></div>"]]

/-- Whether the text of the summary appends the sum of these lines. -/
def AppendsSummary (index : IndexName) : Prop :=
  (summary index).body = String.intercalate "\n"
    ["var all = " ++ index.text ++ ".groupAll();",
      "element.append(" ++
        String.intercalate " +\n               " (summarySums.map sumText) ++ ");",
      "var count = dc.dataCount(\"#dc-\" + displayId + \"-count\");",
      "count.dimension(" ++ index.text ++ ").group(all);"]

theorem appendsSummary (index : IndexName) : AppendsSummary index := by
  have flat (first a b c next last : String) :
      String.intercalate "\n" [first, String.intercalate "\n" [a, b, c], next, last] =
        String.intercalate "\n" [first, a, b, c, next, last] := by
    apply String.toList_inj.mp
    simp
  have append : String.intercalate "\n"
      ["element.append('<div id=\"dc-' + displayId + '-count\">" ++
        "<strong class=\"filter-count\">?</strong> selected ' +",
      "               'out of <strong class=\"total-count\">?</strong> records</div>' +",
      "               '<div style=\"clear: both;\"></div>');"] =
        "element.append(" ++
          String.intercalate " +\n               " (summarySums.map sumText) ++ ");" := by
    cbv
  rw [AppendsSummary, ← append, flat]
  rfl

/-- The texts that the variables of a fragment stand for. -/
def scope (displayId chartId : String) (name : String) : String :=
  if name = "chartId" then chartId else displayId

/-- The markup that the summary appends on a page with a display id. -/
def summaryMarkup (displayId : String) : String :=
  sum (scope displayId "") summarySums.flatten

end Fragment

namespace Chart

variable {chart : Chart} {index : IndexName} {displayId : String}

def containerId (displayId : String) (chart : Chart) : String :=
  Fragment.elementIdOf displayId chart.elementKey

/-- The markup that the program of a chart appends on a page with a display id. -/
def markup (displayId : String) (chart : Chart) (index : IndexName) : String :=
  sum (Fragment.scope displayId (chart.containerId displayId)) (Program.ofChart chart index).markupSum

/-- The selector by which the program of a chart looks its container up. -/
def selector (displayId : String) (chart : Chart) : String :=
  sum (Fragment.scope displayId (chart.containerId displayId)) Program.selectorSum

theorem sum_idSum : sum (Fragment.scope displayId "") (Program.ofChart chart index).idSum =
    chart.containerId displayId := by
  apply String.toList_inj.mp
  simp [sum, Program.idSum, Summand.value, Fragment.scope, containerId, Fragment.elementIdOf,
    Program.ofChart]

theorem toList_selector :
    (chart.selector displayId).toList = '#' :: (chart.containerId displayId).toList := by
  simp [selector, sum, Program.selectorSum, Summand.value, Fragment.scope]

/-! ## Characters of ids -/

/-- Whether all characters of the fields stand for themselves in a selector once dots are replaced. -/
def IsPlain (chart : Chart) : Prop :=
  ∀ field ∈ chart.axis.fields, ∀ c ∈ field.toList, Selector.isPart c = true ∨ c = '.'

instance (chart : Chart) : Decidable chart.IsPlain :=
  decidable_of_iff
    (chart.axis.fields.all fun field => field.toList.all fun c => Selector.isPart c || c == '.')
    (by simp [IsPlain])

theorem isPart_flattened (field : String) :
    (∀ c ∈ (flattened field).toList, Selector.isPart c = true) ↔
      ∀ c ∈ field.toList, Selector.isPart c = true ∨ c = '.' := by
  rw [flattened, String.toList_ofList]
  simp only [List.forall_mem_map]
  refine forall₂_congr fun c _ => ?_
  split
  · rename_i dot
    exact iff_of_true (by decide) (.inr dot)
  · rename_i other
    rw [or_iff_left other]

theorem isPart_elementKey (chart : Chart) :
    (∀ c ∈ chart.elementKey.toList, Selector.isPart c = true) ↔ chart.IsPlain := by
  have name : ∀ c ∈ chart.reducer.kind.name.toList, Selector.isPart c = true := by
    apply List.all_eq_true.mp
    cases chart.reducer.kind <;> decide
  have underscore : ∀ c ∈ "_".toList, Selector.isPart c = true := List.all_eq_true.mp (by decide)
  have between : ∀ c ∈ "___".toList, Selector.isPart c = true := List.all_eq_true.mp (by decide)
  rw [elementKey, String.toList_append, String.toList_append, List.forall_mem_append,
    List.forall_mem_append, String.toList_intercalate, Text.forall_mem_intercalate between,
    and_iff_left name, and_iff_left underscore, List.map_map, List.forall_mem_map]
  exact forall₂_congr fun field _ => isPart_flattened field

/-- An id is made of letters, digits and dashes but for what its fields put into it. -/
theorem isPart_containerId (plain : ∀ c ∈ displayId.toList, c.isAlphanum = true ∨ c = '-') :
    (∀ c ∈ (chart.containerId displayId).toList, Selector.isPart c = true) ↔ chart.IsPlain := by
  have opening : ∀ c ∈ "dc-".toList, Selector.isPart c = true := List.all_eq_true.mp (by decide)
  have display : ∀ c ∈ displayId.toList, Selector.isPart c = true := by
    intro c member
    cases plain c member with
    | inl letter => rw [Selector.isPart, letter]; rfl
    | inr dash => rw [dash]; rfl
  have between : ∀ c ∈ "-chart-".toList, Selector.isPart c = true :=
    List.all_eq_true.mp (by decide)
  rw [containerId, Fragment.elementIdOf, String.toList_append, String.toList_append,
    String.toList_append, List.forall_mem_append, List.forall_mem_append, List.forall_mem_append,
    and_iff_right ⟨⟨opening, display⟩, between⟩, isPart_elementKey]

theorem containerId_injective {one other : Chart}
    (same : one.containerId displayId = other.containerId displayId) :
    one.elementKey = other.elementKey := by
  have chars := congrArg String.toList same
  simp only [containerId, Fragment.elementIdOf, String.toList_append] at chars
  exact String.toList_inj.mp (List.append_cancel_left chars)

/-! ## Ids in markup -/

theorem ids_markup (quoted : '"' ∉ (chart.containerId displayId).toList) :
    Markup.ids (chart.markup displayId index).toList = [(chart.containerId displayId).toList] := by
  have name : Fragment.scope displayId (chart.containerId displayId) "chartId" =
      chart.containerId displayId := if_pos rfl
  have label : (Program.ofChart chart index).label = chart.label := rfl
  have shape : (chart.markup displayId index).toList =
      "<div style=\"float: left;\" id=\"".toList ++ ((chart.containerId displayId).toList ++
        ("\"><strong>".toList ++ (Text.Html.escapeChars chart.label.toList ++
          "</strong><div style=\"clear: both;\"></div></div>".toList))) := by
    rw [markup, toList_sum]
    simp only [Program.markupSum, List.flatMap_cons, List.flatMap_nil, Summand.value, name, label,
      Text.Html.escape, String.toList_ofList, List.append_nil]
  have opens : Markup.attributes .content "<div style=\"float: left;\" id=\"".toList =
        [("style".toList, "float: left;".toList)] ∧
      Markup.after .content "<div style=\"float: left;\" id=\"".toList =
        .value "id".toList [] := by
    decide
  obtain ⟨noValue, value⟩ := Markup.attributes_value "id".toList [] quoted
  have ends (taken : List Char) :
      Markup.attributes (.value "id".toList taken) "\"><strong>".toList = [("id".toList, taken)] ∧
        Markup.after (.value "id".toList taken) "\"><strong>".toList = .content := ⟨rfl, rfl⟩
  obtain ⟨noTag, content⟩ :=
    Markup.attributes_content (Text.Html.notMem_escapeChars (by decide) chart.label.toList)
  have closes :
      Markup.attributes .content "</strong><div style=\"clear: both;\"></div></div>".toList =
        [("style".toList, "clear: both;".toList)] := by
    decide
  rw [Markup.ids, shape, Markup.attributes_append, opens.1, opens.2, Markup.attributes_append,
    noValue, value, Markup.attributes_append, (ends _).1, (ends _).2, Markup.attributes_append,
    noTag, content, closes]
  rfl

end Chart

theorem Fragment.ids_summaryMarkup {displayId : String} (quoted : '"' ∉ displayId.toList) :
    Markup.ids (summaryMarkup displayId).toList = [("dc-" ++ displayId ++ "-count").toList] := by
  have name : scope displayId "" "displayId" = displayId := if_neg (by decide)
  have split : "-count\"><strong class=\"filter-count\">?</strong> selected ".toList =
      "-count".toList ++ "\"><strong class=\"filter-count\">?</strong> selected ".toList := by
    decide
  have shape : (summaryMarkup displayId).toList =
      "<div id=\"dc-".toList ++ ((displayId.toList ++ "-count".toList) ++
        ("\"><strong class=\"filter-count\">?</strong> selected ".toList ++
          ("out of <strong class=\"total-count\">?</strong> records</div>".toList ++
            "<div style=\"clear: both;\"></div>".toList))) := by
    rw [summaryMarkup, toList_sum]
    simp only [summarySums, List.flatten_cons, List.flatten_nil, List.cons_append, List.nil_append,
      List.flatMap_cons, List.flatMap_nil, Summand.value, name, split, List.append_assoc,
      List.append_nil]
  have opens : Markup.attributes .content "<div id=\"dc-".toList = [] ∧
      Markup.after .content "<div id=\"dc-".toList = .value "id".toList "dc-".toList := by
    decide
  have absent : '"' ∉ displayId.toList ++ "-count".toList := by
    simp [quoted]
  obtain ⟨noValue, value⟩ := Markup.attributes_value "id".toList "dc-".toList absent
  have ends (taken : List Char) :
      Markup.attributes (.value "id".toList taken)
          "\"><strong class=\"filter-count\">?</strong> selected ".toList =
        [("id".toList, taken), ("class".toList, "filter-count".toList)] ∧
      Markup.after (.value "id".toList taken)
          "\"><strong class=\"filter-count\">?</strong> selected ".toList = .content := ⟨rfl, rfl⟩
  have closes : Markup.attributes .content
      ("out of <strong class=\"total-count\">?</strong> records</div>".toList ++
        "<div style=\"clear: both;\"></div>".toList) =
        [("class".toList, "total-count".toList), ("style".toList, "clear: both;".toList)] := by
    decide
  rw [Markup.ids, shape, Markup.attributes_append, opens.1, opens.2, Markup.attributes_append,
    noValue, value, Markup.attributes_append, (ends _).1, (ends _).2, closes]
  simp

/-! ## Dashboards -/

namespace Dashboard

variable {table : Table} {index : IndexName} {charts : List Chart} {dashboard : Dashboard}
  {displayId : String}

theorem of_ofCharts (made : ofCharts table index charts = .ok dashboard) :
    dashboard = ⟨table, index, charts, charts.map fun chart => .ofChart chart index⟩ ∧
      (charts.map Chart.elementKey).Nodup := by
  obtain ⟨_, apart, same⟩ := ofCharts_eq_ok.mp made
  exact ⟨same, apart⟩

/-- The markup that the script appends, for the summary and for each chart. -/
def markup (displayId : String) (index : IndexName) (charts : List Chart) : List String :=
  Fragment.summaryMarkup displayId :: charts.map fun chart => chart.markup displayId index

theorem ids_markup (plain : ∀ c ∈ displayId.toList, c.isAlphanum = true ∨ c = '-')
    (all : ∀ chart ∈ charts, chart.IsPlain) :
    ((markup displayId index charts).flatMap fun text => Markup.ids text.toList) =
      ("dc-" ++ displayId ++ "-count").toList ::
        charts.map fun chart => (chart.containerId displayId).toList := by
  have display : '"' ∉ displayId.toList := fun member => absurd (plain '"' member) (by decide)
  have own : ∀ chart ∈ charts, Markup.ids (chart.markup displayId index).toList =
      [(chart.containerId displayId).toList] := by
    intro chart charted
    apply Chart.ids_markup
    intro member
    exact absurd ((Chart.isPart_containerId plain).mpr (all chart charted) '"' member) (by decide)
  rw [markup, List.flatMap_cons, Fragment.ids_summaryMarkup display, List.flatMap_map,
    List.flatMap_congr own, ← List.map_eq_flatMap]
  rfl

theorem nodup_ids (apart : (charts.map Chart.elementKey).Nodup) :
    (("dc-" ++ displayId ++ "-count").toList ::
      charts.map fun chart => (chart.containerId displayId).toList).Nodup := by
  refine List.nodup_cons.mpr ⟨?_, ?_⟩
  · intro member
    obtain ⟨chart, _, same⟩ := List.mem_map.mp member
    simp only [Chart.containerId, Fragment.elementIdOf, String.toList_append,
      List.append_assoc] at same
    have behind := List.append_cancel_left (List.append_cancel_left same)
    simp at behind
  · rw [List.Nodup, List.pairwise_map] at apart ⊢
    refine apart.imp fun different same => different ?_
    exact Chart.containerId_injective (String.toList_inj.mp same)

/-- The fields of a chart decide whether its selector is that of its id: it is if they hold nothing
but letters, digits, dashes, underscores, dots and characters outside of ASCII. Where this is so for
all charts, each selector addresses the container of its own chart and no other element that the
summary or a chart appends. -/
theorem selector_ofCharts (made : ofCharts table index charts = .ok dashboard)
    (plain : ∀ c ∈ displayId.toList, c.isAlphanum = true ∨ c = '-') :
    dashboard.fragments.map (fun fragment => fragment.elementId displayId) =
        charts.map (fun chart => some (chart.containerId displayId)) ∧
      Fragment.AppendsSummary index ∧
      (∀ chart ∈ charts,
        (Program.ofChart chart index).MakesContainer ∧
        sum (Fragment.scope displayId "") (Program.ofChart chart index).idSum =
          chart.containerId displayId ∧
        ((∀ c ∈ (chart.containerId displayId).toList, Selector.isPart c = true) ↔ chart.IsPlain) ∧
        (Selector.id? (chart.selector displayId).toList =
          some (chart.containerId displayId).toList ↔ chart.IsPlain)) ∧
      ((∀ chart ∈ charts, chart.IsPlain) → ∀ chart ∈ charts,
        Markup.ids (chart.markup displayId index).toList =
            [(chart.containerId displayId).toList] ∧
          ((markup displayId index charts).flatMap fun text => Markup.ids text.toList).count
            (chart.containerId displayId).toList = 1) := by
  obtain ⟨rfl, apart⟩ := of_ofCharts made
  refine ⟨?_, Fragment.appendsSummary index, ?_, ?_⟩
  · rw [List.map_map]
    rfl
  · intro chart _
    have parts : (∀ c ∈ (chart.containerId displayId).toList, Selector.isPart c = true) ↔
        chart.IsPlain := Chart.isPart_containerId plain
    have starts : Selector.startsName (chart.containerId displayId).toList = true := by
      rw [Chart.containerId, Fragment.elementIdOf]
      simp only [String.toList_append]
      rfl
    refine ⟨Program.makesContainer _, Chart.sum_idSum, parts, ?_⟩
    rw [Chart.toList_selector]
    exact (Selector.id?_eq_self starts).trans parts
  · intro all chart charted
    have quoted : '"' ∉ (chart.containerId displayId).toList := fun member =>
      absurd ((Chart.isPart_containerId plain).mpr (all chart charted) '"' member) (by decide)
    refine ⟨Chart.ids_markup quoted, ?_⟩
    rw [ids_markup plain all]
    apply List.count_eq_one_of_mem (nodup_ids apart)
    exact List.mem_cons_of_mem _ (List.mem_map.mpr ⟨chart, charted, rfl⟩)

/-- A blank in a field ends the selector of an id, and what follows selects something else. -/
theorem selector_ofCharts_blank :
    ∃ dashboard, ofCharts ⟨[⟨"a b", .integer⟩], [[.integer 1]]⟩ .standard
        [⟨.rowChart, .single "a b", .none, .standard⟩] = .ok dashboard ∧
      dashboard.fragments.map (fun fragment =>
          fragment.elementId "0b2f6f0e-9b0d-4c5e-8f3a-1d2c3b4a5968") =
        [some "dc-0b2f6f0e-9b0d-4c5e-8f3a-1d2c3b4a5968-chart-a b_None"] ∧
      Selector.isPart ' ' = false ∧
      Selector.id? "#dc-0b2f6f0e-9b0d-4c5e-8f3a-1d2c3b4a5968-chart-a b_None".toList = none :=
  ⟨_, rfl, by decide, by decide, by decide⟩

theorem selector_ofCharts_dotted :
    ∃ dashboard, ofCharts ⟨[⟨"a.b", .integer⟩], [[.integer 1]]⟩ .standard
        [⟨.rowChart, .single "a.b", .none, .standard⟩] = .ok dashboard ∧
      Selector.id? "#dc-0b2f6f0e-9b0d-4c5e-8f3a-1d2c3b4a5968-chart-a_b_None".toList =
        some "dc-0b2f6f0e-9b0d-4c5e-8f3a-1d2c3b4a5968-chart-a_b_None".toList ∧
      Markup.ids (Chart.markup "0b2f6f0e-9b0d-4c5e-8f3a-1d2c3b4a5968"
          ⟨.rowChart, .single "a.b", .none, .standard⟩ .standard).toList =
        ["dc-0b2f6f0e-9b0d-4c5e-8f3a-1d2c3b4a5968-chart-a_b_None".toList] := by
  obtain ⟨dashboard, made⟩ : ∃ dashboard, ofCharts ⟨[⟨"a.b", .integer⟩], [[.integer 1]]⟩
      .standard [⟨.rowChart, .single "a.b", .none, .standard⟩] = .ok dashboard := ⟨_, rfl⟩
  have display : ∀ c ∈ "0b2f6f0e-9b0d-4c5e-8f3a-1d2c3b4a5968".toList,
      c.isAlphanum = true ∨ c = '-' := by simp
  obtain ⟨_, _, each, unique⟩ := selector_ofCharts made display
  have only : (⟨.rowChart, .single "a.b", .none, .standard⟩ : Chart) ∈
      [⟨.rowChart, .single "a.b", .none, .standard⟩] := List.mem_singleton_self _
  exact ⟨dashboard, made, (each _ only).2.2.2.mpr (by decide), (unique (by decide) _ only).1⟩

end Dashboard

end LinkedViews
