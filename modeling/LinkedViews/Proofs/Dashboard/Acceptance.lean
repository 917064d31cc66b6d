import Mathlib.Data.List.Forall2
import Mathlib.Data.List.Nodup
import LinkedViews.Dashboard.Basic
import LinkedViews.Proofs.Table.Records

/-!
Which charts make a dashboard. The table must have a column for every field that a chart reads, and
no two charts may share an element key. A failure names the first chart that lacks a column; only if
none does, it names the first chart whose element key has occurred before. The script of a chart
that is accepted reads no field of a record but those that have been looked up.
-/

namespace LinkedViews

/-! ## Fields that a script reads -/

namespace Script

variable {front back script : Script} {first second fields : List String} {separator : String}

/-- The fields of records that a script reads: its literals directly behind an opening bracket. The
first argument tells whether such a bracket stands before the script. -/
def fieldsBehind : Bool → Script → List String
  | _, [] => []
  | _, .code text :: rest => fieldsBehind (text.toList.getLast? = some '[') rest
  | true, .literal field :: rest => field :: fieldsBehind false rest
  | false, .literal _ :: rest => fieldsBehind false rest

def fieldsRead (script : Script) : List String := fieldsBehind false script

/-- A script that begins with code and reads some fields in order. -/
structure Reads (script : Script) (fields : List String) : Prop where
  own : script.fieldsRead = fields
  begins : ∃ text rest, script = .code text :: rest

/-- Code divides what stands before it from the fields behind. -/
theorem Reads.fieldsBehind_append (reads : Reads back second) (opened : Bool) (front : Script) :
    fieldsBehind opened (front ++ back) = fieldsBehind opened front ++ second := by
  induction front generalizing opened with
  | nil =>
      obtain ⟨text, rest, rfl⟩ := reads.begins
      exact reads.own
  | cons piece rest ih =>
      cases piece with
      | code text => exact ih _
      | literal field =>
          cases opened with
          | true => exact congrArg (field :: ·) (ih false)
          | false => exact ih false

theorem Reads.append (one : Reads front first) (other : Reads back second) :
    Reads (front ++ back) (first ++ second) where
  own := by
    rw [fieldsRead, other.fieldsBehind_append]
    exact congrArg (· ++ second) one.own
  begins := by
    obtain ⟨text, rest, rfl⟩ := one.begins
    exact ⟨text, rest ++ back, rfl⟩

theorem Reads.code (text : String) : Reads (Script.code text) [] := ⟨rfl, text, [], rfl⟩

theorem Reads.separated (separator : String) {scripts : List Script} {fields : List (List String)}
    (all : List.Forall₂ Reads scripts fields) (some : scripts ≠ []) :
    Reads (Script.separated separator scripts) fields.flatten := by
  induction all with
  | nil => contradiction
  | cons own others ih =>
      cases others with
      | nil => rwa [List.flatten_cons, List.flatten_nil, List.append_nil]
      | cons next more =>
          have later := (own.append (code separator)).append (ih (List.cons_ne_nil _ _))
          rwa [List.append_nil] at later

end Script

namespace Projection

def fields : Projection → List String
  | raw field => [field]
  | numeric field => [field]
  | triple x y color => [x, y, color]

theorem reads_script (projection : Projection) : projection.script.Reads projection.fields := by
  cases projection with
  | raw field => exact ⟨rfl, _, _, rfl⟩
  | numeric field => exact ⟨rfl, _, _, rfl⟩
  | triple x y color => exact ⟨rfl, _, _, rfl⟩

end Projection

namespace Grouping

/-- The fields that a grouping reads; a mean reads its field to add a record and to take it away. -/
def fieldsRead : Grouping → List String
  | keys => []
  | count => []
  | sum field => [field]
  | mean field => [field, field]
  | cumulative inner => inner.fieldsRead

theorem reads_expression (grouping : Grouping) : grouping.expression.Reads grouping.fieldsRead := by
  induction grouping with
  | keys => exact ⟨rfl, _, _, rfl⟩
  | count => exact ⟨rfl, _, _, rfl⟩
  | sum field => exact ⟨rfl, _, _, rfl⟩
  | mean field => exact ⟨rfl, _, _, rfl⟩
  | cumulative inner ih => exact ih

theorem reads_script (grouping : Grouping) : grouping.script.Reads grouping.fieldsRead := by
  have bound (opening : String) (closing : Script) (grouping : Grouping) (silent : closing.Reads []) :
      (Script.code opening ++ grouping.expression ++ closing).Reads grouping.fieldsRead := by
    have reads := ((Script.Reads.code opening).append grouping.reads_expression).append silent
    rwa [List.nil_append, List.append_nil] at reads
  cases grouping with
  | cumulative inner => exact bound _ _ inner (.code _)
  | keys => exact bound _ _ keys (.code _)
  | count => exact bound _ _ count (.code _)
  | sum field => exact bound _ _ (sum field) (.code _)
  | mean field => exact bound _ _ (mean field) (.code _)

end Grouping

theorem Setting.reads_script (setting : Setting) : setting.script.Reads [] := by
  cases setting <;> exact ⟨rfl, _, _, rfl⟩

theorem Scale.reads_script {scale : Scale} {script : Script}
    (scaled : scale.script? = some script) : script.Reads [] := by
  cases scale with
  | none => contradiction
  | wholeNumbers => obtain rfl := Option.some.inj scaled; exact .code _
  | linear => obtain rfl := Option.some.inj scaled; exact .code _
  | time => obtain rfl := Option.some.inj scaled; exact .code _

theorem ValueAccess.reads_setting {access : ValueAccess} {script : Script}
    (set : access.setting? = some script) : script.Reads [] := by
  cases access with
  | standard => contradiction
  | value => obtain rfl := Option.some.inj set; exact ⟨rfl, _, _, rfl⟩
  | average => obtain rfl := Option.some.inj set; exact ⟨rfl, _, _, rfl⟩

namespace Program

/-- What a program calls comes from its scale, its settings, its size or its values. -/
theorem forall_mem_calls {program : Program} {holds : Script → Prop}
    (scale : ∀ script, program.scale.script? = some script → holds script)
    (setting : ∀ setting ∈ program.settings, holds setting.script)
    (size : holds program.size.script)
    (access : ∀ script, program.access.setting? = some script → holds script) :
    ∀ call ∈ program.calls, holds call := by
  intro call member
  simp only [calls, List.mem_append, Option.mem_toList, List.mem_map, List.mem_singleton] at member
  obtain ((scaled | ⟨one, listed, rfl⟩) | rfl) | set := member
  · exact scale call scaled
  · exact setting one listed
  · exact size
  · exact access call set

theorem reads_calls (program : Program) : ∀ call ∈ program.calls, call.Reads [] :=
  forall_mem_calls (fun _ => Scale.reads_script) (fun setting _ => setting.reads_script) (.code _)
    fun _ => ValueAccess.reads_setting

/-- The drawing of a chart reads no fields, whatever is set. -/
theorem reads_drawing (program : Program) :
    (Script.separated "\n    " (Script.code "chart.dimension(dim).group(group)" :: program.calls) ++
      Script.code ";").Reads [] := by
  have calls : List.Forall₂ Script.Reads program.calls (program.calls.map fun _ => []) :=
    List.forall₂_map_right_iff.mpr (List.forall₂_same.mpr program.reads_calls)
  have first : (Script.code "chart.dimension(dim).group(group)").Reads [] := .code _
  have all := Script.Reads.separated "\n    " (.cons first calls) (List.cons_ne_nil _ _)
  have none : (([] : List String) :: program.calls.map fun _ => []).flatten = [] := by simp
  rw [none] at all
  exact all.append (.code ";")

/-- The fields that a program reads, in the order of its statements. -/
theorem fieldsRead_script (program : Program) : program.script.fieldsRead =
    program.projection.fields ++ (program.grouping.fieldsRead ++
      [program.probeField, program.probeField]) := by
  have dimension : (Script.code ("var dim = " ++ program.index.text ++ ".dimension(") ++
      program.projection.script ++ Script.code ");").Reads program.projection.fields := by
    have reads := ((Script.Reads.code ("var dim = " ++ program.index.text ++ ".dimension(")).append
      program.projection.reads_script).append (.code ");")
    rwa [List.nil_append, List.append_nil] at reads
  have statements : List.Forall₂ Script.Reads program.statements
      [[], [], program.projection.fields, program.grouping.fieldsRead, [program.probeField],
        [program.probeField], [], []] :=
    .cons ⟨rfl, _, _, rfl⟩ <| .cons ⟨rfl, _, _, rfl⟩ <| .cons dimension <|
      .cons program.grouping.reads_script <| .cons ⟨rfl, _, _, rfl⟩ <| .cons ⟨rfl, _, _, rfl⟩ <|
      .cons (.code _) <| .cons program.reads_drawing .nil
  have whole := (Script.Reads.separated "\n" statements (List.cons_ne_nil _ _)).own
  rw [script, whole]
  simp

end Program

namespace Chart

variable {chart : Chart} {index : IndexName} {field : String}

theorem mem_fields_grouping (chart : Chart) (field : String) :
    field ∈ (Grouping.ofReducer chart.reducer).fieldsRead ↔ field ∈ chart.reducer.field?.toList := by
  cases chart.reducer <;> simp [Grouping.ofReducer, Grouping.fieldsRead, Reducer.field?]

theorem fields_projection (chart : Chart) : chart.projection.fields = chart.axis.fields := by
  unfold projection
  split
  · rename_i x y color same
    rw [same]
    rfl
  · rename_i field same
    rw [same]
    split <;> rfl

theorem primary_mem (axis : Axis) : axis.primary ∈ axis.fields := by
  cases axis <;> exact List.mem_cons_self

/-- The script of a chart reads the fields that are looked up for it, and no others. -/
theorem mem_fieldsRead_script :
    field ∈ (Program.ofChart chart index).script.fieldsRead ↔ field ∈ chart.fieldsRead := by
  have grouped := chart.mem_fields_grouping field
  have first := primary_mem chart.axis
  rw [Program.fieldsRead_script]
  simp only [Program.ofChart, fields_projection, List.mem_append, grouped, fieldsRead,
    List.mem_cons, List.not_mem_nil, or_false, or_self]
  constructor
  · intro member
    obtain own | reduced | rfl := member
    · exact .inl own
    · exact .inr reduced
    · exact .inl first
  · intro member
    cases member with
    | inl own => exact .inl own
    | inr reduced => exact .inr (.inl reduced)

end Chart

/-! ## Columns and element keys -/

namespace Dashboard

variable {table : Table} {index : IndexName} {charts before : List Chart} {chart first second : Chart}
  {field : String} {dashboard : Dashboard} {failure : Failure}

/-- Whether the table has a column for every field that a chart reads. -/
def IsCovered (table : Table) (chart : Chart) : Prop :=
  ∀ field ∈ chart.axis.fields ++ chart.reducer.field?.toList, table.hasColumn field = true

/-- The first chart that reads a field without a column, and its first such field. The fields of
its axis come before the one that is reduced. -/
structure IsFirstUnknown (table : Table) (charts : List Chart) (chart : Chart) (field : String) :
    Prop where
  behind : ∃ front back, charts = front ++ chart :: back ∧ ∀ other ∈ front, IsCovered table other
  first : ∃ front back, chart.axis.fields ++ chart.reducer.field?.toList = front ++ field :: back ∧
    ∀ other ∈ front, table.hasColumn other = true
  missing : table.hasColumn field = false

/-- The first chart whose element key has occurred before, and the one chart that has had it. -/
def IsFirstShared (charts : List Chart) (first second : Chart) : Prop :=
  ∃ front back, charts = front ++ second :: back ∧ (front.map Chart.elementKey).Nodup ∧
    first ∈ front ∧ first.elementKey = second.elementKey ∧
    ∀ other ∈ front, other.elementKey = second.elementKey → other = first

theorem find?_unknown_eq_none :
    (chart.fieldsRead.find? fun field => !table.hasColumn field) = none ↔ IsCovered table chart := by
  rw [List.find?_eq_none]
  exact forall₂_congr fun field _ => by simp

theorem unknownField?_eq_none : unknownField? table charts = none ↔
    ∀ chart ∈ charts, IsCovered table chart := by
  rw [unknownField?, List.findSome?_eq_none_iff]
  exact forall₂_congr fun chart _ => Option.map_eq_none_iff.trans find?_unknown_eq_none

theorem unknownField?_eq_some : unknownField? table charts = some (chart, field) ↔
    IsFirstUnknown table charts chart field := by
  simp only [unknownField?, List.findSome?_eq_some_iff, Option.map_eq_none_iff,
    find?_unknown_eq_none, Option.map_eq_some_iff, Prod.mk.injEq]
  constructor
  · intro unknown
    obtain ⟨front, chart, back, rfl, ⟨field, found, rfl, rfl⟩, covered⟩ := unknown
    obtain ⟨missing, before, after, split, known⟩ := List.find?_eq_some_iff_append.mp found
    exact ⟨⟨front, back, rfl, covered⟩, ⟨before, after, split, by simpa using known⟩,
      by simpa using missing⟩
  · intro unknown
    obtain ⟨⟨front, back, rfl, covered⟩, ⟨before, after, split, known⟩, missing⟩ := unknown
    refine ⟨front, chart, back, rfl, ⟨field, ?_, rfl, rfl⟩, covered⟩
    exact List.find?_eq_some_iff_append.mpr
      ⟨by simpa using missing, before, after, split, by simpa using known⟩

/-- The chart that has had the element key of another one. -/
def earlier? (before : List Chart) (chart : Chart) : Option Chart :=
  before.find? fun earlier => earlier.elementKey = chart.elementKey

theorem earlier?_eq_none :
    earlier? before chart = none ↔ chart.elementKey ∉ before.map Chart.elementKey := by
  simp [earlier?]

/-- Of charts with keys of their own only one has a given key. -/
theorem earlier?_eq_some (apart : (before.map Chart.elementKey).Nodup) :
    earlier? before chart = some first ↔
      first ∈ before ∧ first.elementKey = chart.elementKey := by
  constructor
  · intro found
    exact ⟨List.mem_of_find?_eq_some found, by simpa using List.find?_some found⟩
  · intro own
    obtain ⟨member, same⟩ := own
    cases found : earlier? before chart with
    | none =>
        rw [earlier?_eq_none, ← same] at found
        exact absurd (List.mem_map_of_mem member) found
    | some other =>
        have inside := List.mem_of_find?_eq_some found
        have own : other.elementKey = chart.elementKey := by simpa using List.find?_some found
        exact congrArg some (List.inj_on_of_nodup_map apart inside member (own.trans same.symm))

theorem nodup_concat : ((before ++ [chart]).map Chart.elementKey).Nodup ↔
    (before.map Chart.elementKey).Nodup ∧ earlier? before chart = none := by
  rw [earlier?_eq_none, List.map_append, List.map_singleton, ← List.concat_eq_append,
    List.nodup_concat]
  exact and_comm

theorem sharedKey?_cons (before : List Chart) (chart : Chart) (rest : List Chart) :
    sharedKey? before (chart :: rest) =
      ((earlier? before chart).map fun earlier => (earlier, chart)).or
        (sharedKey? (before ++ [chart]) rest) := by
  rw [sharedKey?, ← earlier?]
  cases earlier? before chart <;> rfl

/-- Charts are passed over as long as their keys differ. -/
theorem sharedKey?_append (before : List Chart)
    (apart : ((before ++ charts).map Chart.elementKey).Nodup) (rest : List Chart) :
    sharedKey? before (charts ++ rest) = sharedKey? (before ++ charts) rest := by
  induction charts generalizing before with
  | nil => rw [List.nil_append, List.append_nil]
  | cons chart more ih =>
      rw [List.append_cons] at apart ⊢
      have fresh : earlier? before chart = none := by
        rw [List.map_append, List.nodup_append] at apart
        exact (nodup_concat.mp apart.1).2
      rw [List.cons_append, sharedKey?_cons, fresh, ih _ apart]
      rfl

theorem nodup_of_sharedKey?_eq_none (apart : (before.map Chart.elementKey).Nodup)
    (none : sharedKey? before charts = none) : ((before ++ charts).map Chart.elementKey).Nodup := by
  induction charts generalizing before with
  | nil => rwa [List.append_nil]
  | cons chart rest ih =>
      rw [sharedKey?_cons, Option.or_eq_none_iff, Option.map_eq_none_iff] at none
      rw [List.append_cons]
      exact ih (nodup_concat.mpr ⟨apart, none.1⟩) none.2

theorem exists_of_sharedKey?_eq_some (before : List Chart)
    (apart : (before.map Chart.elementKey).Nodup)
    (shared : sharedKey? before charts = some (first, second)) :
    ∃ front back, charts = front ++ second :: back ∧
      ((before ++ front).map Chart.elementKey).Nodup ∧
      earlier? (before ++ front) second = some first := by
  induction charts generalizing before with
  | nil => contradiction
  | cons chart rest ih =>
      rw [sharedKey?_cons] at shared
      cases found : earlier? before chart with
      | some earlier =>
          rw [found] at shared
          obtain ⟨rfl, rfl⟩ := Prod.mk.inj (Option.some.inj shared)
          refine ⟨[], rest, rfl, ?_, ?_⟩
          · rwa [List.append_nil]
          · rwa [List.append_nil]
      | none =>
          rw [found] at shared
          obtain ⟨front, back, rfl, nodup, own⟩ := ih _ (nodup_concat.mpr ⟨apart, found⟩) shared
          rw [← List.append_cons] at nodup own
          exact ⟨chart :: front, back, rfl, nodup, own⟩

theorem sharedKey?_eq_none :
    sharedKey? [] charts = none ↔ (charts.map Chart.elementKey).Nodup := by
  constructor
  · exact nodup_of_sharedKey?_eq_none List.nodup_nil
  · intro apart
    have passed := sharedKey?_append [] apart []
    rwa [List.append_nil] at passed

theorem sharedKey?_eq_some :
    sharedKey? [] charts = some (first, second) ↔ IsFirstShared charts first second := by
  constructor
  · intro shared
    obtain ⟨front, back, split, apart, found⟩ :=
      exists_of_sharedKey?_eq_some [] List.nodup_nil shared
    obtain ⟨member, same⟩ := (earlier?_eq_some apart).mp found
    refine ⟨front, back, split, apart, member, same, fun other inside own => ?_⟩
    exact List.inj_on_of_nodup_map apart inside member (own.trans same.symm)
  · intro shared
    obtain ⟨front, back, rfl, apart, member, same, _⟩ := shared
    have passed := sharedKey?_append [] apart (second :: back)
    rw [passed, List.nil_append, sharedKey?_cons, (earlier?_eq_some apart).mpr ⟨member, same⟩]
    rfl

/-! ## Acceptance -/

theorem ofCharts_eq_ok : ofCharts table index charts = .ok dashboard ↔
    (∀ chart ∈ charts, IsCovered table chart) ∧ (charts.map Chart.elementKey).Nodup ∧
      dashboard = ⟨table, index, charts, charts.map fun chart => .ofChart chart index⟩ := by
  rw [← unknownField?_eq_none, ← sharedKey?_eq_none, ofCharts]
  cases unknown : unknownField? table charts with
  | some pair => simp
  | none =>
      cases shared : sharedKey? [] charts with
      | some pair => simp
      | none => simp [eq_comm]

theorem ofCharts_eq_error : ofCharts table index charts = .error failure ↔
    (∃ chart field, IsFirstUnknown table charts chart field ∧
        failure = .unknownField chart.caption field) ∨
      (∀ chart ∈ charts, IsCovered table chart) ∧ ∃ first second, IsFirstShared charts first second ∧
        failure = .sharedElementKey first.caption second.caption second.elementKey := by
  simp only [← unknownField?_eq_none, ← unknownField?_eq_some, ← sharedKey?_eq_some, ofCharts]
  cases unknown : unknownField? table charts with
  | some pair =>
      obtain ⟨chart, field⟩ := pair
      simp [eq_comm]
  | none =>
      cases shared : sharedKey? [] charts with
      | some pair =>
          obtain ⟨first, second⟩ := pair
          simp [eq_comm]
      | none => simp

theorem hasColumn_labelled (table : Table) (field : String) :
    table.labelled.hasColumn field = table.hasColumn field := by
  rw [Table.hasColumn, Table.columnIndex?_labelled, Table.hasColumn]

/-- Charts are accepted if and only if the table has a column for each of their fields and their
element keys differ. Then each has its fragment, and its script reads existing columns only.
Otherwise the failure names what comes first. -/
theorem ofCharts_spec (table : Table) (index : IndexName) (charts : List Chart) :
    (∀ dashboard, ofCharts table index charts = .ok dashboard ↔
      (∀ chart ∈ charts, IsCovered table chart) ∧ (charts.map Chart.elementKey).Nodup ∧
        dashboard = ⟨table, index, charts, charts.map fun chart => .ofChart chart index⟩) ∧
    (∀ failure, ofCharts table index charts = .error failure ↔
      (∃ chart field, IsFirstUnknown table charts chart field ∧
          failure = .unknownField chart.caption field) ∨
        (∀ chart ∈ charts, IsCovered table chart) ∧
          ∃ first second, IsFirstShared charts first second ∧
            failure = .sharedElementKey first.caption second.caption second.elementKey) ∧
    ∀ dashboard, ofCharts table index charts = .ok dashboard → ∀ chart ∈ charts,
      (Program.ofChart chart index).script.fieldsRead =
          chart.projection.fields ++ ((Grouping.ofReducer chart.reducer).fieldsRead ++
            [chart.axis.primary, chart.axis.primary]) ∧
        ∀ field ∈ (Program.ofChart chart index).script.fieldsRead,
          table.hasColumn field = true ∧ table.labelled.hasColumn field = true := by
  refine ⟨fun dashboard => ofCharts_eq_ok, fun failure => ofCharts_eq_error, ?_⟩
  intro dashboard made chart member
  refine ⟨Program.fieldsRead_script _, fun field read => ?_⟩
  have known : table.hasColumn field = true :=
    (ofCharts_eq_ok.mp made).1 chart member field (Chart.mem_fieldsRead_script.mp read)
  exact ⟨known, by rwa [hasColumn_labelled]⟩

/-- A mean over a field reads it twice, behind the field of its axis. -/
theorem ofCharts_spec_mean :
    ∃ dashboard, ofCharts ⟨[⟨"a", .text⟩, ⟨"b", .real⟩], []⟩ .standard
        [⟨.rowChart, .single "a", .mean "b", .standard⟩,
          ⟨.rowChart, .single "a", .sum "b", .standard⟩] = .ok dashboard ∧
      dashboard.fragments.map Fragment.elementKey = [some "a_Mean", some "a_Sum"] ∧
      (Program.ofChart ⟨.rowChart, .single "a", .mean "b", .standard⟩ .standard).script.fieldsRead =
        ["a", "b", "b", "a", "a"] := by
  have accepted : ∃ dashboard, ofCharts ⟨[⟨"a", .text⟩, ⟨"b", .real⟩], []⟩ .standard
      [⟨.rowChart, .single "a", .mean "b", .standard⟩,
        ⟨.rowChart, .single "a", .sum "b", .standard⟩] = .ok dashboard := ⟨_, rfl⟩
  obtain ⟨dashboard, made⟩ := accepted
  obtain ⟨accepts, _, reads⟩ := ofCharts_spec ⟨[⟨"a", .text⟩, ⟨"b", .real⟩], []⟩ .standard
    [⟨.rowChart, .single "a", .mean "b", .standard⟩, ⟨.rowChart, .single "a", .sum "b", .standard⟩]
  refine ⟨dashboard, made, ?_, (reads dashboard made _ List.mem_cons_self).1⟩
  rw [((accepts dashboard).mp made).2.2]
  decide

/-- A field without a column is named although two charts before it share a key. -/
example : ofCharts ⟨[⟨"a", .text⟩], []⟩ .standard
    [⟨.rowChart, .single "a", .count, .standard⟩, ⟨.pieChart, .single "a", .count, .standard⟩,
      ⟨.rowChart, .single "b", .count, .standard⟩] =
    .error (.unknownField "RowChart(b)" "b") := rfl

end Dashboard

end LinkedViews
