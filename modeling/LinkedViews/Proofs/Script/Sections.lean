import LinkedViews.Proofs.Script.Closing
import LinkedViews.Proofs.Script.Data
import LinkedViews.Proofs.Script.Events
import LinkedViews.Proofs.Script.Outline

/-!
What happens in the script of a dashboard. It is read section by section; whatever the records of
its table hold and however its columns are named, what it binds and reads are the names of its
templates, with that of the index in between.
-/

namespace LinkedViews

variable {index : IndexName} {stand next last : Stand} {front back : List Token}
  {before after : List Event}

namespace Stand

/-- Tokens that are read from one stand on up to another, and the events of a template that happen
there with the name of the index filled in. -/
structure Reads (index : IndexName) (stand : Stand) (tokens : List Token) (events : List Event)
    (next : Stand) : Prop where
  goal : stand.after tokens = next
  own : stand.events tokens = events.map (Event.fill index)

theorem Reads.append (first : Reads index stand front before next)
    (second : Reads index next back after last) :
    Reads index stand (front ++ back) (before ++ after) last where
  goal := by rw [after_append, first.goal, second.goal]
  own := by rw [events_append, first.goal, first.own, second.own, List.map_append]

theorem Reads.flatMap {item : Type} {items : List item} {tokens : item → List Token}
    {events : item → List Event}
    (each : ∀ one ∈ items, Reads index stand (tokens one) (events one) stand) :
    Reads index stand (items.flatMap tokens) (items.flatMap events) stand := by
  induction items with
  | nil => exact ⟨rfl, rfl⟩
  | cons one rest ih =>
      exact (each one List.mem_cons_self).append
        (ih fun other member => each other (List.mem_cons_of_mem one member))

theorem Reads.of_spelled {text : Details → String} (spelled : Spelled text)
    (ends : Mold.edges? .apart (moldsOf spelled.parts) = some .apart)
    (details : Details) (settled : stand.fill details.index = stand)
    (goal : stand.after (Token.ofParts spelled.parts) = next)
    (settles : next.fill details.index = next) :
    Reads details.index stand (Token.read (text details).toList)
      (stand.events (Token.ofParts spelled.parts)) next where
  goal := by
    have filled := after_fill details.index stand (Token.ofParts spelled.parts)
    rw [settled, goal, settles] at filled
    rw [Token.read_spelled spelled ends, filled]
  own := by
    have filled := events_fill details.index stand (Token.ofParts spelled.parts)
    rw [settled] at filled
    rw [Token.read_spelled spelled ends, filled]

end Stand

/-! ## Fragments -/

namespace Fragment

/-- Whether a text ends no line for a reader of scripts, once it has been put on one line. -/
def IsPlain (text : String) : Prop := ∀ c ∈ text.toList, c ≠ '\u2028' ∧ c ≠ '\u2029'

theorem isPlain_iff (text : String) :
    IsPlain text ↔ ∀ c ∈ (onOneLine text).toList, Lexeme.isLineEnd c = false := by
  rw [onOneLine, String.toList_ofList, List.forall_mem_map]
  refine forall₂_congr fun c _ => ?_
  split
  · rename_i feed
    obtain rfl | rfl := feed
    · decide
    · decide
  · rename_i other
    obtain ⟨feed, return_⟩ := not_or.mp other
    simp [Lexeme.isLineEnd, feed, return_]

variable {fragment : Fragment}

/-- What stands behind the slashes over a fragment, up to the line feed. -/
def comment (fragment : Fragment) : List Char := ' ' :: (onOneLine fragment.label).toList

theorem isPlain_label (fragment : Fragment) :
    IsPlain fragment.label ↔ ∀ c ∈ fragment.comment, Lexeme.isLineEnd c = false := by
  rw [comment, List.forall_mem_cons, isPlain_iff, and_iff_right (by decide)]

def opening : String := "(function() \x7b"

theorem toList_text (fragment : Fragment) :
    fragment.text.toList =
      ('/' :: '/' :: fragment.comment) ++ '\n' :: (opening.toList ++ '\n' ::
        ((Text.indent margin fragment.body).toList ++ '\n' :: "\x7d)();".toList)) := by
  simp [text, comment, opening]

theorem read_comment {text : List Char} (single : ∀ c ∈ text, Lexeme.isLineEnd c = false) :
    Token.read ('/' :: '/' :: text) = [] := by
  have within (taken : List Char) :
      Lexeme.read (.comment taken) text = [.comment (taken ++ text)] := by
    induction text generalizing taken with
    | nil => rw [List.append_nil]; rfl
    | cons c rest ih =>
        have inner := ih (fun d member => single d (List.mem_cons_of_mem c member)) (taken ++ [c])
        rw [List.append_assoc] at inner
        rw [← List.singleton_append (l := rest), ← inner, List.singleton_append]
        simp [Lexeme.read, Lexeme.complete, Lexeme.after, Lexeme.step, single c List.mem_cons_self]
  have whole : Lexeme.read .code ('/' :: '/' :: text) = [.comment text] := within []
  rw [Token.read, Token.readFrom, whole]
  rfl

/-- The body of a fragment is that of a function, which is called at once. -/
theorem read_text (plain : IsPlain fragment.label) :
    Token.read fragment.text.toList =
      [.mark '(', .word (some Stand.functionWord), .mark '(', .mark ')', .mark '\x7b'] ++
        (Token.read fragment.body.toList ++
          [.mark '\x7d', .mark ')', .mark '(', .mark ')', .mark ';']) := by
  have opened : Token.read opening.toList =
      [.mark '(', .word (some Stand.functionWord), .mark '(', .mark ')', .mark '\x7b'] := by
    decide
  have ending : Token.read "\x7d)();".toList =
      [.mark '\x7d', .mark ')', .mark '(', .mark ')', .mark ';'] := by
    decide
  rw [toList_text, Token.read_line, Token.read_line, Token.read_line,
    read_comment ((isPlain_label fragment).mp plain), opened, ending, Token.read_indent]
  rfl

end Fragment

/-- The caption of a chart ends no line exactly if its fields do not. -/
theorem Chart.isPlain_caption (chart : Chart) :
    Fragment.IsPlain chart.caption ↔ ∀ field ∈ chart.axis.fields, Fragment.IsPlain field := by
  have shape : chart.caption.toList = chart.kind.name.toList ++ '(' ::
      ([',', ' '].intercalate (chart.axis.fields.map String.toList) ++ [')']) := by
    simp [caption, title, String.toList_intercalate]
  have named : ∀ c ∈ chart.kind.name.toList, c ≠ '\u2028' ∧ c ≠ '\u2029' := by
    cases chart.kind <;> simp [ChartKind.name]
  have comma : ∀ c ∈ [',', ' '], c ≠ '\u2028' ∧ c ≠ '\u2029' := by simp
  have bracket : ∀ c ∈ [')'], c ≠ '\u2028' ∧ c ≠ '\u2029' := by simp
  rw [Fragment.IsPlain, shape, List.forall_mem_append, List.forall_mem_cons, List.forall_mem_append,
    Text.forall_mem_intercalate comma, List.forall_mem_map, and_iff_right named,
    and_iff_right (by decide), and_iff_left bracket]
  rfl

namespace Dashboard

def opened : Stand := ⟨.mark '\x7b', [.body, .round], false⟩

/-- Where a reader stands between two sections of a script. -/
def between : Stand := ⟨.mark ';', [.body, .round], false⟩

theorem reads_fragment {fragment : Fragment} {body : List Event}
    (plain : Fragment.IsPlain fragment.label)
    (reads : Stand.Reads index Program.opened (Token.read fragment.body.toList) body
      Program.between) :
    Stand.Reads index between (Token.read fragment.text.toList) (Event.function body) between := by
  have enters : Stand.Reads index between
      [.mark '(', .word (some Stand.functionWord), .mark '(', .mark ')', .mark '\x7b'] [.enter]
      Program.opened := ⟨rfl, rfl⟩
  have leaves : Stand.Reads index Program.between
      [.mark '\x7d', .mark ')', .mark '(', .mark ')', .mark ';'] [.leave] between := ⟨rfl, rfl⟩
  rw [Fragment.read_text plain]
  exact enters.append (reads.append leaves)

/-! ### Sections -/

def spelledSummary : Spelled fun details => (Fragment.summary details.index).body :=
  .intercalate (.ofList Lexeme.closes_lineEnd)
    (.cons (.append (.append (.ofList rfl) (.word .index Details.word_index)) (.ofList rfl)) <|
      .cons (.joined (by decide +kernel)) <| .line rfl <| .line rfl <| .line rfl <|
      .cons (.append (.append (.ofList rfl) (.word .index Details.word_index)) (.ofList rfl)) .nil)

def spelledBinding : Spelled fun details =>
    "var " ++ details.index.text ++ " = crossfilter(" ++ Table.standardVariable ++ ");" :=
  .append
    (.append
      (.append (.append (.ofList rfl) (.word .index Details.word_index)) (.ofList rfl))
      (.ofList rfl))
    (.ofList Lexeme.closes_callEnd)

def summaryEvents : List Event := Program.opened.events (Token.ofParts spelledSummary.parts)

theorem leads_summary : Program.opened.Leads false spelledSummary.parts Program.between := by
  decide

def bindingEvents : List Event :=
  [.bind none, .read (some "crossfilter".toList), .read (some "crossfilterData".toList)]

/-- Details of an index alone. -/
def details (index : IndexName) : Details := ⟨index, .standard, "", "", "", "", "", ""⟩

theorem reads_binding (index : IndexName) :
    Stand.Reads index between
      (Token.read ("var " ++ index.text ++ " = crossfilter(" ++ Table.standardVariable ++
        ");").toList) bindingEvents between := by
  have ends : Mold.edges? .apart (moldsOf spelledBinding.parts) = some .apart := by decide
  have goal : between.after (Token.ofParts spelledBinding.parts) = between := by decide
  have own : between.events (Token.ofParts spelledBinding.parts) = bindingEvents := by
    decide
  exact own ▸ Stand.Reads.of_spelled spelledBinding ends (details index) rfl goal rfl

theorem reads_summary (index : IndexName) :
    Stand.Reads index between (Token.read (Fragment.summary index).text.toList)
      (Event.function summaryEvents) between := by
  have ends : Mold.edges? .apart (moldsOf spelledSummary.parts) = some .apart := by decide
  have plain : Fragment.IsPlain (Fragment.summary index).label := by
    simp [Fragment.IsPlain, Fragment.summary]
  exact reads_fragment plain
    (Stand.Reads.of_spelled spelledSummary ends (details index) rfl leads_summary.goal rfl)

def assigning : Stand := ⟨.mark '=', [.body, .round], false⟩

/-- A value that is assigned changes nothing about the names of a script. -/
theorem reads_value {text value : List Char} (closed : Lexeme.closes text = true)
    (assigned : Stand.Reads index stand (Token.read text) before assigning) (data : IsData value) :
    Stand.Reads index stand (Token.read (text ++ ' ' :: (value ++ [';']))) before between := by
  obtain ⟨brackets, header, silent⟩ := data.neutral assigning rfl
  have valued : Stand.Reads index assigning (Token.read value ++ [.mark ';']) [] between := by
    refine ⟨?_, ?_⟩
    · rw [Stand.after_append, Stand.after, Stand.step_mark _ (by decide), brackets, header]
      rfl
    · rw [Stand.events_append, silent]
      rfl
  have tokens : Token.read (text ++ ' ' :: (value ++ [';'])) =
      Token.read text ++ (Token.read value ++ [.mark ';']) := by
    have blank : Token.ofMold (.fixed (.mark ' ')) = [] := rfl
    rw [Token.read_append_cons closed (by decide), Token.read_append_cons data.closed (by decide),
      blank, List.append_nil]
    exact congrArg (Token.read text ++ ·) (List.append_nil _)
  rw [tokens, ← List.append_nil before]
  exact assigned.append valued

def openerEvents : List Event :=
  [.read (some "require".toList), .enter, .bind (some "d3".toList),
    .bind (some "crossfilter".toList), .bind (some "dc".toList)]

theorem reads_opener :
    Stand.Reads index .start (Token.read Resources.opener.toList) openerEvents opened := by
  have tokens : Token.read Resources.opener.toList =
      [.word (some "require".toList), .mark '(', .mark '[', .value, .mark ',', .value, .mark ',',
        .value, .mark ']', .mark ',', .word (some Stand.functionWord), .mark '(',
        .word (some "d3".toList), .mark ',', .word (some "crossfilter".toList), .mark ',',
        .word (some "dc".toList), .mark ')', .mark '\x7b'] := by
    decide
  rw [tokens]
  exact ⟨rfl, rfl⟩

theorem reads_chart {chart : Chart} (fits : chart.Fits)
    (plain : ∀ field ∈ chart.axis.fields, Fragment.IsPlain field) :
    Stand.Reads index between (Token.read (Fragment.ofChart chart index).text.toList)
      (Event.function (Program.events chart.kind chart.reducer.kind)) between := by
  have ends : Mold.edges? .apart
      (moldsOf (Program.spelling chart.kind chart.reducer.kind).parts) = some .apart :=
    (Program.sound_molds chart.kind chart.reducer.kind).delimited
  have reads := Stand.Reads.of_spelled (Program.spelling chart.kind chart.reducer.kind) ends
    (chart.details index) rfl (Program.leads_spelling chart.kind chart.reducer.kind).goal rfl
  beta_reduce at reads
  rw [Chart.program_details fits index] at reads
  refine reads_fragment (chart.isPlain_caption.mpr plain) ?_
  rw [Fragment.ofChart, Program.text, Program.events]
  dsimp only
  exact reads

def drawingEvents : List Event := [.read (some "dc".toList), .read (some "dc".toList)]

/-- What happens before the summary: parameters and variables, the last of which is the index. -/
def preamble : List Event :=
  [.bind (some "d3".toList), .bind (some "crossfilter".toList), .bind (some "dc".toList),
    .bind (some "displayId".toList), .bind (some "crossfilterData".toList)] ++ bindingEvents

def body (charts : List Chart) : List Event :=
  preamble ++ (Event.function summaryEvents ++
    (charts.flatMap (fun chart => Event.function (Program.events chart.kind chart.reducer.kind)) ++
      drawingEvents))

/-- What happens in the script of a dashboard, with the name of the index left open. -/
def events (charts : List Chart) : List Event :=
  .read (some "require".toList) :: Event.function (body charts)

theorem toList_script (dashboard : Dashboard) (displayId : String) :
    (dashboard.script displayId).toList = Resources.opener.toList ++ '\n' ::
      ((String.intercalate "\n\n"
        ((dashboard.sections displayId).map (Text.indent Fragment.margin))).toList ++
          '\n' :: "\x7d);\n".toList) := by
  simp [script]

theorem read_script (dashboard : Dashboard) (displayId : String) :
    Token.read (dashboard.script displayId).toList =
      Token.read Resources.opener.toList ++
        ((dashboard.sections displayId).flatMap (fun section_ => Token.read section_.toList) ++
          [.mark '\x7d', .mark ')', .mark ';']) := by
  have ending : Token.read "\x7d);\n".toList = [.mark '\x7d', .mark ')', .mark ';'] := by
    decide
  have blank : "\n\n".toList = ['\n', '\n'] := by decide
  rw [toList_script, Token.read_line, Token.read_line, String.toList_intercalate, blank,
    Token.read_intercalate Token.read_blankLine, ending, List.flatMap_map, List.flatMap_map]
  simp only [Token.read_indent]

variable {table : Table} {charts : List Chart} {dashboard : Dashboard}

/-- A variable is bound by what assigns to it, whatever is assigned. -/
theorem reads_variable (name : String) {value : String}
    (tokens : Token.read ("var " ++ name ++ " =").toList =
      [.word (some Stand.varWord), .word (some name.toList), .mark '='])
    (closed : Lexeme.closes ("var " ++ name ++ " =").toList = true)
    (assigned : Stand.Reads index stand
      [.word (some Stand.varWord), .word (some name.toList), .mark '=']
      [.bind (some name.toList)] assigning)
    (data : IsData value.toList) :
    Stand.Reads index stand (Token.read ("var " ++ name ++ " = " ++ value ++ ";").toList)
      [.bind (some name.toList)] between := by
  have shape : ("var " ++ name ++ " = " ++ value ++ ";").toList =
      ("var " ++ name ++ " =").toList ++ ' ' :: (value.toList ++ [';']) := by
    simp
  rw [shape]
  exact reads_value closed (tokens ▸ assigned) data

theorem reads_displayId (displayId : String) :
    Stand.Reads index opened
      (Token.read ("var displayId = " ++ Json.quote displayId ++ ";").toList)
      [.bind (some "displayId".toList)] between :=
  reads_variable "displayId" (by decide) (by decide) ⟨rfl, rfl⟩ (.quote displayId)

theorem reads_records (table : Table) :
    Stand.Reads index between
      (Token.read ("var " ++ Table.standardVariable ++ " = " ++ table.recordsText ++ ";").toList)
      [.bind (some "crossfilterData".toList)] between :=
  reads_variable "crossfilterData" (by decide) (by decide) ⟨rfl, rfl⟩ (.recordsText table)

theorem reads_drawing :
    Stand.Reads index between (Token.read "dc.renderAll();\ndc.redrawAll();".toList)
      drawingEvents between := by
  have tokens : Token.read "dc.renderAll();\ndc.redrawAll();".toList =
      [.word (some "dc".toList), .mark '.', .word (some "renderAll".toList), .mark '(', .mark ')',
        .mark ';', .word (some "dc".toList), .mark '.', .word (some "redrawAll".toList),
        .mark '(', .mark ')', .mark ';'] := by
    decide
  rw [tokens]
  exact ⟨rfl, rfl⟩

/-- The script of charts is read as its templates with the name of the index in them. -/
theorem reads_script (made : ofCharts table index charts = .ok dashboard)
    (fits : ∀ chart ∈ charts, chart.Fits)
    (plain : ∀ chart ∈ charts, ∀ field ∈ chart.axis.fields, Fragment.IsPlain field)
    (displayId : String) :
    Stand.start.events (Token.read (dashboard.script displayId).toList) =
      (events charts).map (Event.fill index) := by
  obtain ⟨tabled, indexed, fragments⟩ := fragments_ofCharts made
  have leaves : Stand.Reads index between [.mark '\x7d', .mark ')', .mark ';'] [.leave]
      ⟨.mark ';', [], false⟩ := ⟨rfl, rfl⟩
  have drawn : Stand.Reads index between
      (charts.flatMap fun chart => Token.read (Fragment.ofChart chart index).text.toList)
      (charts.flatMap fun chart => Event.function (Program.events chart.kind chart.reducer.kind))
      between :=
    .flatMap fun chart member => reads_chart (fits chart member) (plain chart member)
  have bound := (reads_displayId displayId).append <| (reads_records table).append <|
    (reads_binding index).append <| (reads_summary index).append <| drawn.append reads_drawing
  have whole := reads_opener.append (bound.append leaves)
  rw [read_script, sections, tabled, indexed, fragments]
  simp only [List.flatMap_append, List.flatMap_cons, List.flatMap_nil, List.flatMap_map,
    List.append_nil, List.append_assoc]
  have own := whole.own
  simp only [List.append_assoc] at own
  rw [own]
  simp only [events, Event.function, body, preamble, openerEvents, List.append_assoc,
    List.cons_append, List.nil_append]

end Dashboard

end LinkedViews
