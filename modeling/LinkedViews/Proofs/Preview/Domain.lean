import LinkedViews.Preview.Domain
import LinkedViews.Proofs.Browser.Accessor
import LinkedViews.Proofs.Preview.Key

/-!
The bounds of a chart. They are read from a row with the least key and from one with the greatest,
which are the rows that a script takes wherever it orders its values as the keys are ordered.
-/

namespace LinkedViews.Domain

open Browser

variable {projection : Projection} {table : Table} {field : String} {row : List Cell}
  {key : List Cell → Key}

/-! ## Extreme rows -/

theorem isLE_of_not_lt {a b : Key} (kept : ¬ a.compare b = .lt) : (b.compare a).isLE = true := by
  rw [Key.compare_swap]
  cases shown : a.compare b with
  | lt => exact absurd shown kept
  | eq => rfl
  | gt => rfl

theorem isLE_of_lt {a b : Key} (less : a.compare b = .lt) : (a.compare b).isLE = true := by
  rw [less]
  rfl

theorem not_lt_of_isLE {a b : Key} (le : (a.compare b).isLE = true) : ¬ b.compare a = .lt := by
  intro less
  rw [Key.compare_swap, less] at le
  contradiction

theorem eq_of_isLE {a b : Key} (le : (a.compare b).isLE = true) (kept : ¬ a.compare b = .lt) :
    a = b := by
  apply Key.eq_of_compare
  cases shown : a.compare b with
  | lt => exact absurd shown kept
  | eq => rfl
  | gt =>
      rw [shown] at le
      contradiction

/-- Whether a row has the least key, and no row before it has the same. -/
def IsFirstLeast (key : List Cell → Key) (rows : List (List Cell)) (row : List Cell) : Prop :=
  ∃ front back, rows = front ++ row :: back ∧
    (∀ other ∈ front, (key row).compare (key other) = .lt) ∧
    ∀ other ∈ back, ((key row).compare (key other)).isLE = true

/-- Whether a row has the greatest key, and no row behind it has the same. -/
def IsLastGreatest (key : List Cell → Key) (rows : List (List Cell)) (row : List Cell) : Prop :=
  ∃ front back, rows = front ++ row :: back ∧
    (∀ other ∈ front, ((key other).compare (key row)).isLE = true) ∧
    ∀ other ∈ back, (key other).compare (key row) = .lt

theorem IsFirstLeast.spec {rows : List (List Cell)} (least : IsFirstLeast key rows row) :
    row ∈ rows ∧ ∀ other ∈ rows, ((key row).compare (key other)).isLE = true := by
  obtain ⟨front, back, rfl, before, behind⟩ := least
  refine ⟨by simp, fun other member => ?_⟩
  obtain ahead | rfl | later := by simpa using member
  · exact isLE_of_lt (before other ahead)
  · exact Std.ReflCmp.isLE_rfl
  · exact behind other later

theorem IsLastGreatest.spec {rows : List (List Cell)} (greatest : IsLastGreatest key rows row) :
    row ∈ rows ∧ ∀ other ∈ rows, ((key other).compare (key row)).isLE = true := by
  obtain ⟨front, back, rfl, before, behind⟩ := greatest
  refine ⟨by simp, fun other member => ?_⟩
  obtain ahead | rfl | later := by simpa using member
  · exact before other ahead
  · exact Std.ReflCmp.isLE_rfl
  · exact isLE_of_lt (behind other later)

/-- A row takes the place of the first one with the least key only if its own is less. -/
theorem IsFirstLeast.concat {rows : List (List Cell)} {best : List Cell}
    (least : IsFirstLeast key rows best) (row : List Cell) :
    IsFirstLeast key (rows ++ [row])
      (if (key row).compare (key best) = .lt then row else best) := by
  split
  · refine ⟨rows, [], rfl, fun other member => ?_, by simp⟩
    exact Std.TransCmp.lt_of_lt_of_isLE ‹_› (least.spec.2 other member)
  · obtain ⟨front, back, rfl, before, behind⟩ := least
    refine ⟨front, back ++ [row], by simp, before, fun other member => ?_⟩
    obtain later | rfl := by simpa using member
    · exact behind other later
    · exact isLE_of_not_lt ‹_›

/-- A row takes the place of the last one with the greatest key unless its own is less. -/
theorem IsLastGreatest.concat {rows : List (List Cell)} {best : List Cell}
    (greatest : IsLastGreatest key rows best) (row : List Cell) :
    IsLastGreatest key (rows ++ [row])
      (if (key row).compare (key best) = .lt then best else row) := by
  split
  · rename_i less
    obtain ⟨front, back, rfl, before, behind⟩ := greatest
    refine ⟨front, back ++ [row], by simp, before, fun other member => ?_⟩
    obtain later | rfl := by simpa using member
    · exact behind other later
    · exact less
  · refine ⟨rows, [], rfl, fun other member => ?_, by simp⟩
    exact Std.TransCmp.isLE_trans (greatest.spec.2 other member) (isLE_of_not_lt ‹_›)

theorem isFirstLeast_leastRow {rows : List (List Cell)} {best : List Cell}
    (least : IsFirstLeast key rows best) (rest : List (List Cell)) :
    IsFirstLeast key (rows ++ rest) (leastRow key best rest) := by
  induction rest generalizing rows best with
  | nil => rwa [List.append_nil]
  | cons row rest ih =>
      rw [List.append_cons]
      exact ih (least.concat row)

theorem isLastGreatest_greatestRow {rows : List (List Cell)} {best : List Cell}
    (greatest : IsLastGreatest key rows best) (rest : List (List Cell)) :
    IsLastGreatest key (rows ++ rest) (greatestRow key best rest) := by
  induction rest generalizing rows best with
  | nil => rwa [List.append_nil]
  | cons row rest ih =>
      rw [List.append_cons]
      exact ih (greatest.concat row)

theorem ofTable?_eq_none (projection : Projection) (field : String) :
    ofTable? projection field table = none ↔ table.rows = [] := by
  rw [ofTable?]
  cases table.rows with
  | nil => exact iff_of_true rfl rfl
  | cons row rest => exact iff_of_false (by rintro ⟨⟩) (by simp)

theorem exists_ofTable? (projection : Projection) (field : String) (filled : table.rows ≠ []) :
    ∃ bounds least greatest, ofTable? projection field table = some bounds ∧
      IsFirstLeast (projection.key table) table.rows least ∧
      IsLastGreatest (projection.key table) table.rows greatest ∧
      bounds.lower = table.cellOf least field ∧
      bounds.upper = (table.cellOf greatest field).next := by
  obtain ⟨row, rest, shape⟩ := List.exists_cons_of_ne_nil filled
  have least : IsFirstLeast (projection.key table) [row] row := ⟨[], [], rfl, by simp, by simp⟩
  have greatest : IsLastGreatest (projection.key table) [row] row := ⟨[], [], rfl, by simp, by simp⟩
  rw [ofTable?, shape]
  exact ⟨_, _, _, rfl, isFirstLeast_leastRow least rest, isLastGreatest_greatestRow greatest rest,
    rfl, rfl⟩

theorem ofTable?_spec (projection : Projection) (field : String) (filled : table.rows ≠ []) :
    ∃ bounds least greatest, ofTable? projection field table = some bounds ∧
      least ∈ table.rows ∧ greatest ∈ table.rows ∧
      (∀ row ∈ table.rows,
        ((projection.key table least).compare (projection.key table row)).isLE = true ∧
        ((projection.key table row).compare (projection.key table greatest)).isLE = true) ∧
      bounds.lower = table.cellOf least field ∧
      bounds.upper = (table.cellOf greatest field).next := by
  obtain ⟨bounds, least, greatest, made, low, high, lower, upper⟩ :=
    exists_ofTable? projection field filled
  exact ⟨bounds, least, greatest, made, low.spec.1, high.spec.1, fun row member =>
    ⟨low.spec.2 row member, high.spec.2 row member⟩, lower, upper⟩

/-! ## Rows of a script -/

/-- Whether the keys of two rows are ordered as the values that accessors give for their decoded
records. -/
def IsOrdered (projection : Projection) (table : Table) (front back : List Cell) : Prop :=
  ∃ v w, projection.value? (Table.record table.columns front) = some v ∧
    projection.value? (Table.record table.columns back) = some w ∧ Value.Comparable v w ∧
    Value.Agrees ((projection.key table front).compare (projection.key table back)) v w

/-- Whether accessors give a value for the decoded record of one row and a greater one for that of
another. -/
def IsLess (projection : Projection) (table : Table) (front back : List Cell) : Prop :=
  ∃ v w, projection.value? (Table.record table.columns front) = some v ∧
    projection.value? (Table.record table.columns back) = some w ∧ Value.less? v w = some true

/-- Whether a script can take a row from the lower end of its order. -/
def IsBottom (projection : Projection) (table : Table) (row : List Cell) : Prop :=
  row ∈ table.rows ∧ ∀ other ∈ table.rows, ¬ IsLess projection table other row

/-- Whether a script can take a row from the upper end of its order. -/
def IsTop (projection : Projection) (table : Table) (row : List Cell) : Prop :=
  row ∈ table.rows ∧ ∀ other ∈ table.rows, ¬ IsLess projection table row other

theorem isLess_iff {front back : List Cell} (ordered : IsOrdered projection table front back) :
    IsLess projection table front back ↔
      (projection.key table front).compare (projection.key table back) = .lt := by
  obtain ⟨v, w, here, there, _, agrees⟩ := ordered
  rw [agrees.1]
  constructor
  · rintro ⟨v', w', here', there', less⟩
    rw [here] at here'
    rw [there] at there'
    rwa [← Option.some.inj here', ← Option.some.inj there'] at less
  · exact fun less => ⟨v, w, here, there, less⟩

/-- Where keys are ordered as scripts order the values, the bounds are those of the rows that a
script takes, if rows with one key have one cell for the field. -/
theorem ofTable?_of_isOrdered (filled : table.rows ≠ [])
    (ordered : ∀ front ∈ table.rows, ∀ back ∈ table.rows, IsOrdered projection table front back)
    (same : ∀ front ∈ table.rows, ∀ back ∈ table.rows,
      projection.key table front = projection.key table back →
        table.cellOf front field = table.cellOf back field) :
    ∃ bounds, ofTable? projection field table = some bounds ∧
      (∃ row, IsBottom projection table row) ∧ (∃ row, IsTop projection table row) ∧
      (∀ row, IsBottom projection table row → bounds.lower = table.cellOf row field) ∧
      ∀ row, IsTop projection table row → bounds.upper = (table.cellOf row field).next := by
  obtain ⟨bounds, least, greatest, made, low, high, extreme, lower, upper⟩ :=
    ofTable?_spec projection field filled
  refine ⟨bounds, made, ⟨least, low, fun other member less => ?_⟩,
    ⟨greatest, high, fun other member less => ?_⟩, fun row bottom => ?_, fun row top => ?_⟩
  · have below := (isLess_iff (ordered other member least low)).mp less
    exact not_lt_of_isLE (extreme other member).1 below
  · have above := (isLess_iff (ordered greatest high other member)).mp less
    exact not_lt_of_isLE (extreme other member).2 above
  · have kept := bottom.2 least low
    rw [isLess_iff (ordered least low row bottom.1)] at kept
    rw [lower]
    exact same least low row bottom.1 (eq_of_isLE (extreme row bottom.1).1 kept)
  · have kept := top.2 greatest high
    rw [isLess_iff (ordered row top.1 greatest high)] at kept
    rw [upper, same row top.1 greatest high (eq_of_isLE (extreme row top.1).2 kept)]

end LinkedViews.Domain
