import LinkedViews.Proofs.Script.Sections

/-!
Whose names are whose in the script of a dashboard. The index is bound once, by the function of the
script. A function within hides it, or it takes the place of a name that the script reads, for two
names of an index only.
-/

namespace LinkedViews

variable {index : IndexName} {table : Table} {dashboard : Dashboard}

namespace Place

/-- The name that a script has in this place is the one of the index, where the template does not
put it, and belongs to the function of the script. -/
def IsCaptured (index : IndexName) (place : Place) : Prop :=
  place.name = some index.text.toList ∧ (place.fill index).home = some 0

/-- The template puts the name of the index in this place, and it belongs to another function. -/
def IsHidden (index : IndexName) (place : Place) : Prop :=
  place.name = none ∧ (place.fill index).home ≠ some 0

end Place

namespace IndexName

theorem isReserved_eq_false (index : IndexName) : isReserved index.text.toList = false := by
  have valid := index.valid
  simp only [isValid, Bool.and_eq_true, Bool.not_eq_true'] at valid
  rw [isReserved, String.ofList_toList]
  exact valid.1.2

theorem isKeyword_eq_false (index : IndexName) : isKeyword index.text.toList = false := by
  have valid := index.valid
  simp only [isValid, Bool.and_eq_true, Bool.not_eq_true'] at valid
  rw [isKeyword, String.ofList_toList]
  exact valid.2

end IndexName

namespace Dashboard

/-- The names that the function of a script binds, the index as the last one. -/
def names : List ScopeName := Place.scope preamble

def places (charts : List Chart) : List Place := Place.all [] (events charts)

def programPlaces (chart : Chart) : List Place :=
  Place.all [] (Event.function (Program.events chart.kind chart.reducer.kind))

theorem level_program (chart : Chart) :
    Place.depth? 0 (Program.events chart.kind chart.reducer.kind) = some 0 :=
  (Program.leads_spelling chart.kind chart.reducer.kind).level

theorem level_summary : Place.depth? 0 summaryEvents = some 0 := leads_summary.level

theorem level_fragment (chart : Chart) :
    Place.depth? 0 (Event.function (Program.events chart.kind chart.reducer.kind)) = some 0 :=
  Place.depth?_function (level_program chart)

theorem level_preamble : Place.depth? 0 preamble = some 0 := by decide

theorem level_body (charts : List Chart) : Place.depth? 0 (body charts) = some 0 := by
  have drawing : Place.depth? 0 drawingEvents = some 0 := by decide
  have programs := Place.depth?_flatMap fun chart (_ : chart ∈ charts) => level_fragment chart
  exact Place.depth?_append_level level_preamble <|
    Place.depth?_append_level (Place.depth?_function level_summary) <|
    Place.depth?_append_level programs drawing

theorem scope_body (charts : List Chart) : Place.scope (body charts) = names := by
  have drawing : Place.bound 0 drawingEvents = [] := by decide
  have programs := Place.depth?_flatMap fun chart (_ : chart ∈ charts) => level_fragment chart
  have bound := Place.bound_flatMap fun chart (_ : chart ∈ charts) =>
    ⟨level_fragment chart, Place.bound_function (level_program chart)⟩
  rw [Place.scope, body, Place.bound_append_level level_preamble,
    Place.bound_append_level (Place.depth?_function level_summary),
    Place.bound_append_level programs, Place.bound_function level_summary, bound, drawing]
  exact congrArg _ (List.append_nil _)

/-- The places of a script, apart from the first, are those of its preamble, its fragments and its
last section, with the function of the script around them. -/
theorem mem_places {charts : List Chart} {place : Place} :
    place ∈ places charts ↔ place = ⟨some "require".toList, []⟩ ∨
      ∃ inner, place = inner.within [names] ∧
        (inner ∈ Place.all [] preamble ∨ inner ∈ Place.all [] (Event.function summaryEvents) ∨
          (∃ chart ∈ charts, inner ∈ programPlaces chart) ∨ inner ∈ Place.all [] drawingEvents) := by
  have programs := Place.depth?_flatMap fun chart (_ : chart ∈ charts) => level_fragment chart
  rw [places, events, Place.all, Place.all_function (level_body charts), scope_body, List.mem_cons,
    List.mem_map, body, Place.all_append_level _ level_preamble, Place.within_nil,
    Place.all_append_level _ (Place.depth?_function level_summary), Place.within_nil,
    Place.all_append_level _ programs, Place.within_nil,
    Place.all_flatMap fun chart _ => level_fragment chart]
  simp only [List.mem_append, List.mem_flatMap, programPlaces, eq_comm, and_comm]

/-! ### Where the index belongs -/

variable {dated : Bool} {parts : List Part} {stand next : Stand} {place : Place}

/-- Of the names that a fragment binds, an index can have only the one of its arguments. -/
theorem mem_scope_iff (leads : Stand.Leads dated stand parts next) (index : IndexName) :
    some index.text.toList ∈
        (Place.scope (stand.events (Token.ofParts parts))).map (ScopeName.fill index) ↔
      index.text.toList = Place.argumentsName := by
  rw [Place.scope, List.map_cons, List.mem_cons, List.mem_map]
  constructor
  · rintro (same | ⟨name, bound, same⟩)
    · exact Option.some.inj same
    · have reserved := leads.names name bound
      cases name with
      | none => contradiction
      | some word =>
          obtain rfl : word = index.text.toList := Option.some.inj same
          exact absurd reserved (by simp [index.isReserved_eq_false])
  · exact fun same => .inl (congrArg some same)

theorem home_within_iff (own : Place) (scope : List ScopeName) (index : IndexName)
    (name : (own.fill index).name = some index.text.toList) :
    (((own.within [scope]).within [names]).fill index).home = some 0 ↔
      (∀ inner ∈ own.scopes, some index.text.toList ∉ inner.map (ScopeName.fill index)) ∧
        some index.text.toList ∉ scope.map (ScopeName.fill index) := by
  have last : some index.text.toList ∈ names.map (ScopeName.fill index) := by
    have open_ : none ∈ names := by decide
    exact List.mem_map.mpr ⟨none, open_, rfl⟩
  have shape : (((own.within [scope]).within [names]).fill index) =
      ⟨some index.text.toList, (own.scopes.map (List.map (ScopeName.fill index)) ++
        [scope.map (ScopeName.fill index)]) ++ [names.map (ScopeName.fill index)]⟩ := by
    rw [← name]
    simp [Place.fill, Place.within]
  rw [shape, Place.home, Place.homeIn_eq_zero_iff, and_iff_left last]
  simp only [List.mem_append, List.mem_map, List.mem_singleton, forall_exists_index, and_imp,
    forall_apply_eq_imp_iff₂, or_imp, forall_and, forall_eq]

theorem isHidden_iff (leads : Stand.Leads dated stand parts next)
    (member : place ∈ Place.all [] (Event.function (stand.events (Token.ofParts parts)))) :
    (place.within [names]).IsHidden index ↔
      place.name = none ∧ index.text.toList = Place.argumentsName := by
  rw [Place.all_function leads.level] at member
  obtain ⟨own, within, rfl⟩ := List.mem_map.mp member
  refine and_congr_right fun unnamed => ?_
  have open_ : own.name = none := unnamed
  have name : (own.fill index).name = some index.text.toList := by
    rw [Place.fill, open_]
    rfl
  have outside : own.scopes = [] := by
    obtain settled | ⟨_, rfl⟩ := leads.places own within
    · simpa [Place.isSettled, open_] using settled
    · rfl
  rw [ne_eq, home_within_iff own _ index name, outside, mem_scope_iff leads]
  simp

theorem isCaptured_imp (leads : Stand.Leads dated stand parts next)
    (member : place ∈ Place.all [] (Event.function (stand.events (Token.ofParts parts))))
    (captured : (place.within [names]).IsCaptured index) :
    dated = true ∧ index.text = "Date" := by
  rw [Place.all_function leads.level] at member
  obtain ⟨own, within, rfl⟩ := List.mem_map.mp member
  obtain ⟨named, home⟩ := captured
  have closed : own.name = some index.text.toList := named
  have name : (own.fill index).name = some index.text.toList := by
    rw [Place.fill, closed]
    rfl
  rw [home_within_iff own _ index name] at home
  obtain settled | ⟨allowed, rfl⟩ := leads.places own within
  · have bound : ∃ scope ∈ own.scopes, some index.text.toList ∈ scope := by
      simpa [Place.isSettled, closed, index.isReserved_eq_false, index.isKeyword_eq_false]
        using settled
    obtain ⟨scope, around, inside⟩ := bound
    exact absurd (List.mem_map.mpr ⟨_, inside, rfl⟩) (home.1 scope around)
  · refine ⟨allowed, ?_⟩
    rw [← String.ofList_toList (s := index.text), ← Option.some.inj closed]

theorem isCaptured_date (leads : Stand.Leads dated stand parts next)
    (member : Place.date ∈ Place.all [] (stand.events (Token.ofParts parts)))
    (dates : index.text = "Date") :
    ∃ place ∈ Place.all [] (Event.function (stand.events (Token.ofParts parts))),
      (place.within [names]).IsCaptured index := by
  have letters : index.text.toList = ['D', 'a', 't', 'e'] := by
    rw [dates]
    decide
  have named : Place.date.name = some index.text.toList := by
    rw [letters]
    rfl
  have name : (Place.date.fill index).name = some index.text.toList := by
    rw [Place.fill, named]
    rfl
  have visible : some index.text.toList ∉
      (Place.scope (stand.events (Token.ofParts parts))).map (ScopeName.fill index) := by
    rw [mem_scope_iff leads, letters]
    decide
  rw [Place.all_function leads.level]
  refine ⟨_, List.mem_map_of_mem member, named, ?_⟩
  exact (home_within_iff Place.date _ index name).mpr
    ⟨fun scope none => absurd none List.not_mem_nil, visible⟩

/-- The preamble and the last section read reserved names only. -/
theorem isReserved_of_mem (member : place ∈ Place.all [] preamble ∨ place ∈ Place.all [] drawingEvents) :
    place.name.any IndexName.isReserved = true := by
  have first : ∀ place ∈ Place.all [] preamble, place.name.any IndexName.isReserved = true := by
    decide
  have last : ∀ place ∈ Place.all [] drawingEvents,
      place.name.any IndexName.isReserved = true := by
    decide
  exact member.elim (first place) (last place)

theorem not_of_isReserved (reserved : place.name.any IndexName.isReserved = true) :
    ¬ (place.within [names]).IsHidden index ∧ ¬ (place.within [names]).IsCaptured index := by
  constructor
  · rintro ⟨unnamed, _⟩
    rw [show place.name = none from unnamed] at reserved
    contradiction
  · rintro ⟨named, _⟩
    rw [show place.name = some index.text.toList from named] at reserved
    simp [index.isReserved_eq_false] at reserved

variable {charts : List Chart} {dashboard : Dashboard}

theorem text_eq_arguments_iff (index : IndexName) :
    index.text = "arguments" ↔ index.text.toList = Place.argumentsName := by
  rw [show Place.argumentsName = "arguments".toList by decide, String.toList_inj]

theorem isHidden_place_iff (charts : List Chart) (index : IndexName) :
    (∃ place ∈ places charts, place.IsHidden index) ↔ index.text = "arguments" := by
  rw [text_eq_arguments_iff]
  constructor
  · rintro ⟨place, member, hidden⟩
    obtain rfl | ⟨inner, rfl, section_⟩ := mem_places.mp member
    · exact absurd hidden.1 (by simp)
    · obtain own | own | ⟨chart, _, own⟩ | own := section_
      · exact absurd hidden (not_of_isReserved (isReserved_of_mem (.inl own))).1
      · exact ((isHidden_iff leads_summary own).mp hidden).2
      · exact ((isHidden_iff (Program.leads_spelling _ _) own).mp hidden).2
      · exact absurd hidden (not_of_isReserved (isReserved_of_mem (.inr own))).1
  · intro same
    have written : ∃ place ∈ Place.all [] (Event.function summaryEvents), place.name = none := by
      decide
    obtain ⟨place, own, unnamed⟩ := written
    exact ⟨_, mem_places.mpr (.inr ⟨place, rfl, .inr (.inl own)⟩),
      (isHidden_iff leads_summary own).mpr ⟨unnamed, same⟩⟩

theorem isCaptured_place_iff (charts : List Chart) (index : IndexName) :
    (∃ place ∈ places charts, place.IsCaptured index) ↔
      index.text = "Date" ∧ ∃ chart ∈ charts, chart.kind.scale = .time := by
  constructor
  · rintro ⟨place, member, captured⟩
    obtain rfl | ⟨inner, rfl, section_⟩ := mem_places.mp member
    · exact absurd captured.2 (by simp [Place.fill, Place.home, Place.homeIn])
    · obtain own | own | ⟨chart, charted, own⟩ | own := section_
      · exact absurd captured (not_of_isReserved (isReserved_of_mem (.inl own))).2
      · exact absurd (isCaptured_imp leads_summary own captured).1 (by simp)
      · obtain ⟨time, dates⟩ := isCaptured_imp (Program.leads_spelling _ _) own captured
        exact ⟨dates, chart, charted, of_decide_eq_true time⟩
      · exact absurd captured (not_of_isReserved (isReserved_of_mem (.inr own))).2
  · rintro ⟨dates, chart, charted, time⟩
    obtain ⟨place, own, captured⟩ :=
      isCaptured_date (Program.leads_spelling chart.kind chart.reducer.kind)
        (Program.date_mem chart.reducer.kind time) dates
    exact ⟨_, mem_places.mpr (.inr ⟨place, rfl, .inr (.inr (.inl ⟨chart, charted, own⟩))⟩), captured⟩

theorem getLast?_scopes (member : place ∈ places charts) :
    place.scopes = [] ∨ place.scopes.getLast? = some names := by
  obtain rfl | ⟨inner, rfl, _⟩ := mem_places.mp member
  · exact .inl rfl
  · exact .inr (by simp [Place.within])

theorem count_names_iff (index : IndexName) :
    (names.map (ScopeName.fill index)).count (some index.text.toList) = 1 ↔
      index.text ≠ "arguments" := by
  obtain ⟨others, shape, reserved⟩ : ∃ others, names = some Place.argumentsName :: others ++ [none] ∧
      ∀ name ∈ others, name.any IndexName.isReserved = true :=
    ⟨["d3", "crossfilter", "dc", "displayId", "crossfilterData"].map fun name => some name.toList,
      by decide⟩
  have absent : some index.text.toList ∉ others.map (ScopeName.fill index) := by
    intro member
    obtain ⟨name, bound, same⟩ := List.mem_map.mp member
    have own := reserved name bound
    cases name with
    | none => contradiction
    | some word =>
        obtain rfl : word = index.text.toList := Option.some.inj same
        simp [index.isReserved_eq_false] at own
  rw [ne_eq, text_eq_arguments_iff, shape, List.map_append, List.map_cons, List.count_append,
    List.count_cons, List.count_eq_zero_of_not_mem absent]
  by_cases same : index.text.toList = Place.argumentsName
  · simp [ScopeName.fill, same]
  · simp [ScopeName.fill, same, Ne.symm same]

theorem ofText_script (made : ofCharts table index charts = .ok dashboard)
    (fits : ∀ chart ∈ charts, chart.Fits)
    (plain : ∀ chart ∈ charts, ∀ field ∈ chart.axis.fields, Fragment.IsPlain field)
    (displayId : String) :
    Place.ofText (dashboard.script displayId) = (places charts).map (Place.fill index) := by
  rw [Place.ofText, reads_script made fits plain]
  exact Place.all_fill index [] (events charts)

/-- The places of a script are those of its templates with the name of the index filled in. All are
in the function of the script, which binds the index once; the places that are left open belong to
that binding, and no others do, but for an index of one of two names. -/
theorem places_script (made : ofCharts table index charts = .ok dashboard)
    (charted : ∀ chart ∈ charts, ∃ kind fields reducer field size,
      Chart.ofParts kind fields reducer field size = .ok chart)
    (plain : ∀ chart ∈ charts, ∀ field ∈ chart.axis.fields, Fragment.IsPlain field)
    (displayId : String) :
    Place.ofText (dashboard.script displayId) = (places charts).map (Place.fill index) ∧
      (∀ place ∈ places charts, place.scopes = [] ∨ place.scopes.getLast? = some names) ∧
      ((names.map (ScopeName.fill index)).count (some index.text.toList) = 1 ↔
        index.text ≠ "arguments") ∧
      ((∃ place ∈ places charts, place.IsHidden index) ↔ index.text = "arguments") ∧
      ((∃ place ∈ places charts, place.IsCaptured index) ↔
        index.text = "Date" ∧ ∃ chart ∈ charts, chart.kind.scale = .time) := by
  have fits (chart : Chart) (member : chart ∈ charts) : chart.Fits := by
    obtain ⟨_, _, _, _, _, formed⟩ := charted chart member
    exact (Chart.ofParts_eq_ok formed).1
  exact ⟨ofText_script made fits plain displayId, fun place => getLast?_scopes,
    count_names_iff index, isHidden_place_iff charts index, isCaptured_place_iff charts index⟩

/-- A chart over time with an index of the usual name. -/
theorem places_script_time :
    ∃ dashboard, ofCharts ⟨[⟨"t", .integer⟩], [[.integer 1]]⟩ .standard
        [⟨.timeChart, .single "t", .none, .standard⟩] = .ok dashboard ∧
      Place.ofText (dashboard.script "0b2f6f0e-9b0d-4c5e-8f3a-1d2c3b4a5968") =
        (places [⟨.timeChart, .single "t", .none, .standard⟩]).map (Place.fill .standard) ∧
      ¬ ∃ place ∈ places [⟨.timeChart, .single "t", .none, .standard⟩],
        place.IsHidden .standard ∨ place.IsCaptured .standard := by
  obtain ⟨dashboard, made⟩ : ∃ dashboard, ofCharts ⟨[⟨"t", .integer⟩], [[.integer 1]]⟩ .standard
      [⟨.timeChart, .single "t", .none, .standard⟩] = .ok dashboard := ⟨_, rfl⟩
  obtain ⟨filled, _, _, hidden, captured⟩ := places_script made
    (List.forall_mem_singleton.mpr ⟨.timeChart, ["t"], .none, none, .standard, rfl⟩)
    (List.forall_mem_singleton.mpr (by simp [Axis.fields, Fragment.IsPlain]))
    "0b2f6f0e-9b0d-4c5e-8f3a-1d2c3b4a5968"
  refine ⟨dashboard, made, filled, ?_⟩
  rintro ⟨place, member, hides | captures⟩
  · exact absurd (hidden.mp ⟨place, member, hides⟩) (by decide)
  · exact absurd (captured.mp ⟨place, member, captures⟩).1 (by decide)

/-- A chart over time makes dates of its least and its greatest key; with an index named like the
constructor it calls the index. -/
theorem isCaptured_place_date :
    ∃ index dashboard, IndexName.ofText? "Date" = some index ∧
      ofCharts ⟨[⟨"t", .integer⟩], [[.integer 1]]⟩ index
        [⟨.timeChart, .single "t", .none, .standard⟩] = .ok dashboard ∧
      Place.ofText (dashboard.script "0b2f6f0e-9b0d-4c5e-8f3a-1d2c3b4a5968") =
        (places [⟨.timeChart, .single "t", .none, .standard⟩]).map (Place.fill index) ∧
      ∃ place ∈ places [⟨.timeChart, .single "t", .none, .standard⟩], place.IsCaptured index := by
  have valid : IndexName.isValid "Date" = true := by decide +kernel
  obtain ⟨dashboard, made⟩ : ∃ dashboard, ofCharts ⟨[⟨"t", .integer⟩], [[.integer 1]]⟩
      ⟨"Date", valid⟩ [⟨.timeChart, .single "t", .none, .standard⟩] = .ok dashboard := ⟨_, rfl⟩
  refine ⟨⟨"Date", valid⟩, dashboard, dif_pos valid, made, ofText_script made ?_ ?_ _, ?_⟩
  · exact List.forall_mem_singleton.mpr trivial
  · exact List.forall_mem_singleton.mpr (by simp [Axis.fields, Fragment.IsPlain])
  · exact (isCaptured_place_iff _ _).mpr ⟨rfl, _, List.mem_singleton_self _, rfl⟩

end Dashboard

end LinkedViews
