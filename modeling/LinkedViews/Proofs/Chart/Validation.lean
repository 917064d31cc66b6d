import Mathlib.Data.List.Forall2
import LinkedViews.Chart.Entry

/-!
The checks that the entries of a configuration have to pass. A list of entries gives charts if and
only if every entry is valid. Otherwise it gives the failure of the first entry that is not, and of
the first condition that this entry breaks.
-/

namespace LinkedViews

/-! ## Names, axes and reducers -/

section Names

variable {α : Type} {all : List α} {name : α → String} {a b : α} {text : String}

/-- Whether whatever has a name of this form is listed and found by its name. -/
def IsFoundByName (all : List α) (name : α → String) : Prop :=
  ∀ a, (all.find? fun b => name b = name a) = some a

theorem IsFoundByName.find?_eq_some (found : IsFoundByName all name) :
    (all.find? fun b => name b = text) = some a ↔ name a = text := by
  constructor
  · intro own
    exact of_decide_eq_true (List.find?_some own :)
  · rintro rfl
    exact found a

theorem IsFoundByName.find?_eq_none (found : IsFoundByName all name) :
    (all.find? fun b => name b = text) = none ↔ ∀ a, name a ≠ text := by
  simp only [Option.eq_none_iff_forall_ne_some, Ne, found.find?_eq_some]

theorem IsFoundByName.injective (found : IsFoundByName all name) (same : name a = name b) : a = b :=
  Option.some.inj ((found.find?_eq_some.mpr rfl).symm.trans (found.find?_eq_some.mpr same.symm))

theorem ChartKind.isFoundByName : IsFoundByName ChartKind.all ChartKind.name := by
  intro kind
  cases kind <;> decide

theorem ReducerKind.isFoundByName : IsFoundByName ReducerKind.all ReducerKind.name := by
  intro kind
  cases kind <;> decide

end Names

namespace Axis

variable {kind : ChartKind} {fields : List String} {axis other : Axis}

/-- The axis over the first of some fields: over three of them if there are as many, and over one if
it is the only one. -/
def ofFirst? : List String → Option Axis
  | x :: y :: color :: _ => some (scatter x y color)
  | [field] => some (single field)
  | _ => none

/-- Fields of the right number always make an axis. -/
theorem exists_ofFirst? (even : fields.length = kind.arity) :
    ∃ axis, ofFirst? fields = some axis ∧ ofFields? kind fields = some axis ∧
      axis.fields = fields ∧ (kind.isScatter = true ↔ ∃ x y color, axis = scatter x y color) := by
  rw [ChartKind.arity] at even
  cases scatters : kind.isScatter with
  | false =>
      rw [scatters] at even
      obtain ⟨field, rfl⟩ := List.length_eq_one_iff.mp even
      exact ⟨single field, rfl, by simp only [ofFields?, scatters], rfl, by simp⟩
  | true =>
      rw [scatters] at even
      obtain ⟨x, y, color, rfl⟩ := List.length_eq_three.mp even
      exact ⟨scatter x y color, rfl, by simp only [ofFields?, scatters], rfl, by simp⟩

theorem ofFields?_eq_none (uneven : fields.length ≠ kind.arity) : ofFields? kind fields = none := by
  rw [ChartKind.arity] at uneven
  unfold ofFields?
  split
  · rename_i plain
    simp [plain] at uneven
  · rename_i scatters
    simp [scatters] at uneven
  · rfl

theorem fields_injective (same : axis.fields = other.fields) : axis = other := by
  cases axis <;> cases other <;> simp_all [fields]

end Axis

namespace Reducer

variable {kind : ReducerKind} {given : Option String} {reducer other : Reducer}

theorem ofKind?_eq_none :
    ofKind? kind given = Option.none ↔ kind.usesField = true ∧ given = Option.none := by
  cases kind <;> cases given <;> simp [ofKind?, ReducerKind.usesField]

theorem ofKind?_spec (made : ofKind? kind given = some reducer) :
    reducer.kind = kind ∧ reducer.field? = if kind.usesField then given else Option.none := by
  cases kind <;> cases given <;> cases made <;> exact ⟨rfl, rfl⟩

theorem isSome_field? (reducer : Reducer) :
    reducer.field?.isSome = true ↔ reducer.kind ∈ [ReducerKind.sum, .mean, .cumulativeSum] := by
  cases reducer <;> simp [field?, kind]

theorem eq_of_kind (same : reducer.kind = other.kind) (field : reducer.field? = other.field?) :
    reducer = other := by
  cases reducer <;> cases other <;> simp_all [kind, field?]

end Reducer

namespace ChartEntry

variable {index : IndexName} {entry : ChartEntry} {kind : ChartKind} {reducer : ReducerKind}
  {chart other : Chart} {failure : Failure}

/-! ## Valid entries -/

/-- An entry that fits the index and the kind and reducer it names. -/
structure Fits (index : IndexName) (entry : ChartEntry) (kind : ChartKind) (reducer : ReducerKind) :
    Prop where
  kindName : kind.name = entry.kind
  reducerName : reducer.name = entry.reducer
  indexName : ∀ name, entry.indexName = some name → name = index.text
  arity : entry.axis.fields.length = if kind.isScatter then 3 else 1
  axisFields : "" ∉ entry.axis.fields
  width : entry.width.getD 450 ≠ 0
  height : entry.height.getD 250 ≠ 0
  reducerField : reducer.usesField = true → ∃ field, entry.reducerField = some field ∧ field ≠ ""

def IsValid (index : IndexName) (entry : ChartEntry) : Prop :=
  ∃ kind reducer, Fits index entry kind reducer

/-- What a chart has to be for an entry. -/
structure Describes (entry : ChartEntry) (chart : Chart) : Prop where
  kind : chart.kind.name = entry.kind
  axis : chart.axis.fields = entry.axis.fields
  scatter : chart.kind.isScatter = true ↔ ∃ x y color, chart.axis = .scatter x y color
  reducer : chart.reducer.kind.name = entry.reducer
  aggregates : chart.reducer.field?.isSome = true ↔
    chart.reducer.kind ∈ [ReducerKind.sum, .mean, .cumulativeSum]
  reducerField : ∀ field, chart.reducer.field? = some field → entry.reducerField = some field
  size : chart.size = ⟨entry.width.getD 450, entry.height.getD 250⟩
  filled : "" ∉ chart.fieldsRead

/-- The conditions on an entry. -/
inductive Condition where
  | kind
  | reducer
  | indexName
  | arity
  | axisFields
  | size
  | reducerFilled
  | reducerGiven
deriving DecidableEq, Repr

/-- The place of a condition in the order in which they are checked. -/
def Condition.place : Condition → Nat
  | .kind => 0
  | .reducer => 1
  | .indexName => 2
  | .arity => 3
  | .axisFields => 4
  | .size => 5
  | .reducerFilled => 6
  | .reducerGiven => 7

/-- Whether an entry breaks a condition, with the failure that tells so. -/
inductive Breaks (index : IndexName) (entry : ChartEntry) : Condition → Failure → Prop where
  | kind (unknown : ∀ kind : ChartKind, kind.name ≠ entry.kind) :
      Breaks index entry .kind (.unknownChartKind entry.kind)
  | reducer (unknown : ∀ reducer : ReducerKind, reducer.name ≠ entry.reducer) :
      Breaks index entry .reducer (.unknownReducer entry.reducer)
  | indexName {kind : ChartKind} {name : String} (known : kind.name = entry.kind)
      (given : entry.indexName = some name) (other : name ≠ index.text) :
      Breaks index entry .indexName
        (.indexNameMismatch (Chart.title kind entry.axis.fields) index.text name)
  | arity {kind : ChartKind} (known : kind.name = entry.kind)
      (uneven : entry.axis.fields.length ≠ if kind.isScatter then 3 else 1) :
      Breaks index entry .arity
        (.axisArity (Chart.title kind entry.axis.fields) kind entry.axis.fields.length)
  | axisFields {kind : ChartKind} (known : kind.name = entry.kind)
      (blank : "" ∈ entry.axis.fields) :
      Breaks index entry .axisFields (.emptyField (Chart.title kind entry.axis.fields))
  | size {kind : ChartKind} (known : kind.name = entry.kind)
      (flat : entry.width.getD 450 = 0 ∨ entry.height.getD 250 = 0) :
      Breaks index entry .size (.invalidSize (Chart.title kind entry.axis.fields)
        ⟨entry.width.getD 450, entry.height.getD 250⟩)
  | reducerFilled {kind : ChartKind} {reducer : ReducerKind} (known : kind.name = entry.kind)
      (reduced : reducer.name = entry.reducer) (uses : reducer.usesField = true)
      (blank : entry.reducerField = some "") :
      Breaks index entry .reducerFilled (.emptyField (Chart.title kind entry.axis.fields))
  | reducerGiven {kind : ChartKind} {reducer : ReducerKind} (known : kind.name = entry.kind)
      (reduced : reducer.name = entry.reducer) (uses : reducer.usesField = true)
      (missing : entry.reducerField = none) :
      Breaks index entry .reducerGiven
        (.missingReducerField (Chart.title kind entry.axis.fields) reducer)

/-- Whether an entry keeps the conditions before a place. -/
def Keeps (index : IndexName) (entry : ChartEntry) (place : Nat) : Prop :=
  ∀ condition : Condition, condition.place < place →
    ∀ failure, ¬ Breaks index entry condition failure

/-- Whether a failure is that of the first condition that an entry breaks. -/
def FailsFirst (index : IndexName) (entry : ChartEntry) (failure : Failure) : Prop :=
  ∃ condition : Condition, Breaks index entry condition failure ∧
    Keeps index entry condition.place

theorem Condition.place_injective {a b : Condition} (same : a.place = b.place) : a = b := by
  cases a <;> cases b <;> first | rfl | exact absurd same (by decide)

theorem Condition.place_lt (condition : Condition) : condition.place < 8 := by
  cases condition <;> decide

theorem Keeps.next (condition : Condition) (keeps : Keeps index entry condition.place)
    (kept : ∀ failure, ¬ Breaks index entry condition failure) :
    Keeps index entry (condition.place + 1) := by
  intro earlier below failure broken
  obtain less | same := Nat.lt_succ_iff_lt_or_eq.mp below
  · exact keeps earlier less failure broken
  · exact kept failure (Condition.place_injective same ▸ broken)

/-- An entry is valid if it breaks no condition, and only then. -/
theorem isValid_iff :
    IsValid index entry ↔ ∀ condition failure, ¬ Breaks index entry condition failure := by
  constructor
  · rintro ⟨kind, reducer, fits⟩ condition failure broken
    have own {other : ChartKind} (known : other.name = entry.kind) : other = kind :=
      ChartKind.isFoundByName.injective (known.trans fits.kindName.symm)
    have same {other : ReducerKind} (reduced : other.name = entry.reducer) : other = reducer :=
      ReducerKind.isFoundByName.injective (reduced.trans fits.reducerName.symm)
    cases broken with
    | kind unknown => exact unknown kind fits.kindName
    | reducer unknown => exact unknown reducer fits.reducerName
    | indexName known given other => exact other (fits.indexName _ given)
    | arity known uneven => exact uneven (own known ▸ fits.arity)
    | axisFields known blank => exact fits.axisFields blank
    | size known flat => exact flat.elim fits.width fits.height
    | reducerFilled known reduced uses blank =>
        obtain ⟨field, given, filled⟩ := fits.reducerField (same reduced ▸ uses)
        exact filled (Option.some.inj (given.symm.trans blank))
    | reducerGiven known reduced uses missing =>
        obtain ⟨field, given, _⟩ := fits.reducerField (same reduced ▸ uses)
        rw [missing] at given
        contradiction
  · intro kept
    obtain ⟨kind, known⟩ : ∃ kind : ChartKind, kind.name = entry.kind := by
      by_contra! unknown
      exact kept _ _ (.kind unknown)
    obtain ⟨reducer, reduced⟩ : ∃ reducer : ReducerKind, reducer.name = entry.reducer := by
      by_contra! unknown
      exact kept _ _ (.reducer unknown)
    refine ⟨kind, reducer, known, reduced, fun name given => ?_, ?_, fun blank => ?_,
      fun flat => ?_, fun flat => ?_, fun uses => ?_⟩
    · by_contra other
      exact kept _ _ (.indexName known given other)
    · by_contra uneven
      exact kept _ _ (.arity known uneven)
    · exact kept _ _ (.axisFields known blank)
    · exact kept _ _ (.size known (.inl flat))
    · exact kept _ _ (.size known (.inr flat))
    · cases given : entry.reducerField with
      | none => exact absurd (.reducerGiven known reduced uses given) (kept _ _)
      | some field =>
          refine ⟨field, rfl, ?_⟩
          rintro rfl
          exact kept _ _ (.reducerFilled known reduced uses given)

theorem Breaks.unique {condition : Condition} {other : Failure}
    (one : Breaks index entry condition failure) (two : Breaks index entry condition other) :
    failure = other := by
  have own {a b : ChartKind} (known : a.name = entry.kind) (again : b.name = entry.kind) : a = b :=
    ChartKind.isFoundByName.injective (known.trans again.symm)
  cases one with
  | kind => cases two; rfl
  | reducer => cases two; rfl
  | indexName known given =>
      cases two with
      | indexName again same =>
          rw [own known again, Option.some.inj (given.symm.trans same)]
  | arity known =>
      cases two with
      | arity again => rw [own known again]
  | axisFields known =>
      cases two with
      | axisFields again => rw [own known again]
  | size known =>
      cases two with
      | size again => rw [own known again]
  | reducerFilled known =>
      cases two with
      | reducerFilled again => rw [own known again]
  | reducerGiven known reduced =>
      cases two with
      | reducerGiven again reducedAgain =>
          rw [own known again,
            ReducerKind.isFoundByName.injective (reduced.trans reducedAgain.symm)]

theorem FailsFirst.not_isValid (fails : FailsFirst index entry failure) :
    ¬ IsValid index entry := by
  obtain ⟨condition, broken, _⟩ := fails
  exact fun valid => isValid_iff.mp valid condition failure broken

theorem FailsFirst.unique {other : Failure} (one : FailsFirst index entry failure)
    (two : FailsFirst index entry other) : failure = other := by
  obtain ⟨first, here, before⟩ := one
  obtain ⟨second, there, sooner⟩ := two
  rcases Nat.lt_trichotomy first.place second.place with less | same | more
  · exact absurd here (sooner first less failure)
  · rw [Condition.place_injective same] at here
    exact here.unique there
  · exact absurd there (before second more other)

theorem Describes.unique (one : Describes entry chart) (two : Describes entry other) :
    chart = other := by
  have kind : chart.kind = other.kind :=
    ChartKind.isFoundByName.injective (one.kind.trans two.kind.symm)
  have axis : chart.axis = other.axis := Axis.fields_injective (one.axis.trans two.axis.symm)
  have reducers : chart.reducer.kind = other.reducer.kind :=
    ReducerKind.isFoundByName.injective (one.reducer.trans two.reducer.symm)
  have both : chart.reducer.field?.isSome = true ↔ other.reducer.field?.isSome = true := by
    rw [one.aggregates, two.aggregates, reducers]
  have fields : chart.reducer.field? = other.reducer.field? := by
    cases here : chart.reducer.field? <;> cases there : other.reducer.field?
    · rfl
    · simp [here, there] at both
    · simp [here, there] at both
    · exact (one.reducerField _ here).symm.trans (two.reducerField _ there)
  have reducer : chart.reducer = other.reducer := Reducer.eq_of_kind reducers fields
  have size : chart.size = other.size := one.size.trans two.size.symm
  cases chart
  cases other
  simp_all

/-! ## One entry -/

/-- What the checks of an entry come to: the chart it describes if it is valid, else the failure of
the first condition it breaks. -/
inductive Settles (index : IndexName) (entry : ChartEntry) : Except Failure Chart → Prop where
  | ok {chart : Chart} (valid : IsValid index entry) (describes : Describes entry chart) :
      Settles index entry (.ok chart)
  | error {failure : Failure} (fails : FailsFirst index entry failure) :
      Settles index entry (.error failure)

/-- A check that fails if and only if the next condition is broken. -/
theorem Settles.check (condition : Condition) {broken : Prop} [Decidable broken]
    {rest : Except Failure Chart} (keeps : Keeps index entry condition.place)
    (breaks : broken → Breaks index entry condition failure)
    (only : ∀ other, Breaks index entry condition other → broken)
    (later : ¬ broken → Keeps index entry (condition.place + 1) → Settles index entry rest) :
    Settles index entry (if broken then .error failure else rest) := by
  by_cases fails : broken
  · rw [if_pos fails]
    exact .error ⟨condition, breaks fails, keeps⟩
  · rw [if_neg fails]
    exact later fails (keeps.next condition fun other found => fails (only other found))

theorem describes_of_parts {axis : Axis} {made : Reducer} (known : kind.name = entry.kind)
    (reduced : reducer.name = entry.reducer) (fields : axis.fields = entry.axis.fields)
    (scatter : kind.isScatter = true ↔ ∃ x y color, axis = .scatter x y color)
    (reduces : Reducer.ofKind? reducer entry.reducerField = some made)
    (filled : "" ∉ entry.axis.fields)
    (named : ¬ (reducer.usesField = true ∧ entry.reducerField = some "")) :
    Describes entry ⟨kind, axis, made, entry.size⟩ := by
  obtain ⟨kinds, field⟩ := Reducer.ofKind?_spec reduces
  have given : ∀ name, made.field? = some name →
      reducer.usesField = true ∧ entry.reducerField = some name := by
    intro name shown
    rw [field] at shown
    split at shown
    · exact ⟨‹_›, shown⟩
    · contradiction
  refine ⟨known, fields, scatter, kinds ▸ reduced, made.isSome_field?,
    fun name shown => (given name shown).2, rfl, fun inside => ?_⟩
  obtain axis | reducer := List.mem_append.mp inside
  · exact filled (fields ▸ axis)
  · exact named (given "" (Option.mem_toList.mp reducer))

/-- The checks on the parts of an entry that names a kind and a reducer. -/
theorem settles_ofParts (known : kind.name = entry.kind) (reduced : reducer.name = entry.reducer)
    (keeps : Keeps index entry (Condition.place .arity)) :
    Settles index entry
      (Chart.ofParts kind entry.axis.fields reducer entry.reducerField entry.size) := by
  have own {other : ChartKind} (again : other.name = entry.kind) : other = kind :=
    ChartKind.isFoundByName.injective (again.trans known.symm)
  have same {other : ReducerKind} (again : other.name = entry.reducer) : other = reducer :=
    ReducerKind.isFoundByName.injective (again.trans reduced.symm)
  by_cases uneven : entry.axis.fields.length ≠ kind.arity
  · rw [Chart.ofParts, Axis.ofFields?_eq_none uneven]
    exact .error ⟨.arity, .arity known uneven, keeps⟩
  have keeps := keeps.next .arity fun _ broken => by
    cases broken with
    | arity again other => exact uneven (own again ▸ other)
  obtain ⟨axis, _, made, fields, scatter⟩ := Axis.exists_ofFirst? (not_not.mp uneven)
  simp only [Chart.ofParts, made]
  refine Settles.check .axisFields keeps (.axisFields known) (fun _ broken => ?_) fun filled keeps => ?_
  · cases broken with
    | axisFields _ blank => exact blank
  refine Settles.check .size keeps (.size known) (fun _ broken => ?_) fun _ keeps => ?_
  · cases broken with
    | size _ flat => exact flat
  refine Settles.check .reducerFilled keeps
    (fun blank => .reducerFilled known reduced blank.1 blank.2) (fun _ broken => ?_)
    fun named keeps => ?_
  · cases broken with
    | reducerFilled _ again uses blank => exact ⟨same again ▸ uses, blank⟩
  cases reduces : Reducer.ofKind? reducer entry.reducerField with
  | none =>
      obtain ⟨uses, missing⟩ := Reducer.ofKind?_eq_none.mp reduces
      exact .error ⟨.reducerGiven, .reducerGiven known reduced uses missing, keeps⟩
  | some made =>
      have keeps := keeps.next .reducerGiven fun _ broken => by
        cases broken with
        | reducerGiven _ again uses missing =>
            have none := Reducer.ofKind?_eq_none.mpr ⟨same again ▸ uses, missing⟩
            rw [none] at reduces
            contradiction
      have valid := isValid_iff.mpr fun condition => keeps condition condition.place_lt
      exact .ok valid (describes_of_parts known reduced fields scatter reduces filled named)

theorem settles_chart (index : IndexName) (entry : ChartEntry) :
    Settles index entry (entry.chart index) := by
  have keeps : Keeps index entry 0 := fun _ below => absurd below (Nat.not_lt_zero _)
  simp only [ChartEntry.chart]
  cases kinds : ChartKind.ofName? entry.kind with
  | none =>
      have unknown := ChartKind.isFoundByName.find?_eq_none.mp kinds
      exact .error ⟨.kind, .kind unknown, keeps⟩
  | some kind =>
  have known := ChartKind.isFoundByName.find?_eq_some.mp kinds
  have keeps := keeps.next .kind fun _ broken => by
    cases broken with
    | kind unknown => exact unknown kind known
  cases reducers : ReducerKind.ofName? entry.reducer with
  | none =>
      have unknown := ReducerKind.isFoundByName.find?_eq_none.mp reducers
      exact .error ⟨.reducer, .reducer unknown, keeps⟩
  | some reducer =>
  have reduced := ReducerKind.isFoundByName.find?_eq_some.mp reducers
  have keeps := keeps.next .reducer fun _ broken => by
    cases broken with
    | reducer unknown => exact unknown reducer reduced
  cases foreign : entry.indexName.filter fun name => name ≠ index.text with
  | some name =>
      obtain ⟨given, other⟩ := Option.filter_eq_some_iff.mp foreign
      exact .error ⟨.indexName, .indexName known given (of_decide_eq_true other), keeps⟩
  | none =>
  refine settles_ofParts known reduced (keeps.next .indexName fun _ broken => ?_)
  cases broken with
  | indexName _ given other =>
      rw [given, Option.filter_some, if_pos (decide_eq_true other)] at foreign
      contradiction

/-- An entry gives a chart if and only if it is valid, and which one it describes. -/
theorem chart_eq_ok :
    entry.chart index = .ok chart ↔ IsValid index entry ∧ Describes entry chart := by
  have settled := settles_chart index entry
  cases made : entry.chart index with
  | ok own =>
      rw [made] at settled
      cases settled with
      | ok valid fits =>
          rw [Except.ok.injEq]
          exact ⟨fun same => same ▸ ⟨valid, fits⟩, fun own => fits.unique own.2⟩
  | error failure =>
      rw [made] at settled
      cases settled with
      | error fails => exact iff_of_false (by rintro ⟨⟩) fun own => fails.not_isValid own.1

theorem chart_eq_error : entry.chart index = .error failure ↔ FailsFirst index entry failure := by
  have settled := settles_chart index entry
  cases made : entry.chart index with
  | ok own =>
      rw [made] at settled
      cases settled with
      | ok valid _ => exact iff_of_false (by rintro ⟨⟩) fun fails => fails.not_isValid valid
  | error failure =>
      rw [made] at settled
      cases settled with
      | error first =>
          rw [Except.error.injEq]
          exact ⟨fun same => same ▸ first, first.unique⟩

/-! ## Lists of entries -/

theorem charts_cons (index : IndexName) (entry : ChartEntry) (rest : List ChartEntry) :
    charts index (entry :: rest) = (do
      let chart ← entry.chart index
      let others ← charts index rest
      return chart :: others) := List.mapM_cons

theorem charts_eq_ok {entries : List ChartEntry} {made : List Chart} :
    charts index entries = .ok made ↔ List.Forall₂
      (fun entry chart => IsValid index entry ∧ Describes entry chart) entries made := by
  simp only [← chart_eq_ok]
  induction entries generalizing made with
  | nil =>
      change Except.ok [] = Except.ok made ↔ _
      rw [Except.ok.injEq, List.forall₂_nil_left_iff, eq_comm]
  | cons entry rest ih =>
      rw [charts_cons, List.forall₂_cons_left_iff]
      cases shown : entry.chart index with
      | error failure =>
          refine iff_of_false (by rintro ⟨⟩) ?_
          rintro ⟨chart, others, own, _⟩
          contradiction
      | ok chart =>
          cases behind : charts index rest with
          | error failure =>
              refine iff_of_false (by rintro ⟨⟩) ?_
              rintro ⟨_, others, _, same, _⟩
              rw [ih.mpr same] at behind
              contradiction
          | ok others =>
              change Except.ok (chart :: others) = Except.ok made ↔ _
              rw [Except.ok.injEq]
              constructor
              · rintro rfl
                exact ⟨chart, others, rfl, ih.mp behind, rfl⟩
              · rintro ⟨_, _, own, same, rfl⟩
                rw [Except.ok.inj own, Except.ok.inj (behind.symm.trans (ih.mpr same))]

theorem charts_eq_error {entries : List ChartEntry} :
    charts index entries = .error failure ↔
      ∃ front entry back, entries = front ++ entry :: back ∧
        (∀ other ∈ front, IsValid index other) ∧ FailsFirst index entry failure := by
  induction entries with
  | nil => exact iff_of_false (by rintro ⟨⟩) (by simp)
  | cons entry rest ih =>
      rw [charts_cons]
      cases shown : entry.chart index with
      | error own =>
          have first := chart_eq_error.mp shown
          change Except.error own = Except.error failure ↔ _
          rw [Except.error.injEq]
          constructor
          · rintro rfl
            exact ⟨[], entry, rest, rfl, by simp, first⟩
          · rintro ⟨front, other, back, shape, kept, fails⟩
            cases front with
            | nil =>
                obtain ⟨rfl, _⟩ := List.cons.inj shape
                exact first.unique fails
            | cons head tail =>
                obtain ⟨rfl, _⟩ := List.cons.inj shape
                exact absurd (kept entry List.mem_cons_self) first.not_isValid
      | ok chart =>
          obtain ⟨valid, _⟩ := chart_eq_ok.mp shown
          refine Iff.trans ?_ (ih.trans ?_)
          · cases charts index rest with
            | ok others => exact iff_of_false (by rintro ⟨⟩) (by rintro ⟨⟩)
            | error own => exact Iff.rfl
          constructor
          · rintro ⟨front, other, back, rfl, kept, fails⟩
            exact ⟨entry :: front, other, back, rfl, List.forall_mem_cons.mpr ⟨valid, kept⟩, fails⟩
          · rintro ⟨front, other, back, shape, kept, fails⟩
            cases front with
            | nil =>
                obtain ⟨rfl, _⟩ := List.cons.inj shape
                exact absurd valid fails.not_isValid
            | cons head tail =>
                obtain ⟨rfl, rfl⟩ := List.cons.inj shape
                exact ⟨tail, other, back, rfl, (List.forall_mem_cons.mp kept).2, fails⟩

/-- Charts are made of all entries or of none. They are made if and only if every entry is valid,
and then each is the one that its entry describes. Else the failure is that of the first entry that
is not valid and of the first condition it breaks. Fields that are as many as a chart needs make an
axis in any case. -/
theorem charts_spec (index : IndexName) (entries : List ChartEntry) :
    ((∃ made, charts index entries = .ok made) ↔ ∀ entry ∈ entries, IsValid index entry) ∧
      (∀ made, charts index entries = .ok made ↔
        (∀ entry ∈ entries, IsValid index entry) ∧ List.Forall₂ Describes entries made) ∧
      (∀ failure, charts index entries = .error failure ↔
        ∃ front entry back, entries = front ++ entry :: back ∧
          (∀ other ∈ front, IsValid index other) ∧ FailsFirst index entry failure) ∧
      ∀ (kind : ChartKind) (fields : List String),
        (fields.length ≠ kind.arity → Axis.ofFields? kind fields = none) ∧
          (fields.length = kind.arity → ∃ axis, Axis.ofFirst? fields = some axis ∧
            Axis.ofFields? kind fields = some axis) := by
  have succeeds (made : List Chart) : charts index entries = .ok made ↔
      (∀ entry ∈ entries, IsValid index entry) ∧ List.Forall₂ Describes entries made := by
    rw [charts_eq_ok, List.forall₂_and_left]
  refine ⟨⟨fun ⟨made, given⟩ => ((succeeds made).mp given).1, fun valid => ?_⟩, succeeds,
    fun failure => charts_eq_error, fun kind fields => ⟨Axis.ofFields?_eq_none, fun even => ?_⟩⟩
  · cases shown : charts index entries with
    | ok made => exact ⟨made, rfl⟩
    | error failure =>
        obtain ⟨front, entry, back, rfl, _, fails⟩ := charts_eq_error.mp shown
        exact absurd (valid entry (by simp)) fails.not_isValid
  · obtain ⟨axis, first, own, _⟩ := Axis.exists_ofFirst? even
    exact ⟨axis, first, own⟩

/-- Of two fields, one of them empty, no width and no field to sum, the number is told. -/
example (index : IndexName) :
    charts index [⟨"BarChart", .many ["", "a"], "Sum", none, some 0, none, none⟩] =
      .error (.axisArity "BarChart(, a)" .barChart 2) := rfl

end ChartEntry

end LinkedViews
