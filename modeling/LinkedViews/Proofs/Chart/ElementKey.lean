import LinkedViews.Proofs.Chart.Validation

/-!
When charts share an element key. The name of a reducer kind has no underscore, so the last one in a
key is that in front of the name, whatever the fields are called. In front of it nothing can be told
apart that is alike once dots are underscores and the fields are joined.
-/

namespace LinkedViews

/-- A text is split at its last separator in one way. -/
theorem Text.append_cons_inj_of_last {front back head tail : List Char} {c : Char}
    (last : c ∉ back) (latest : c ∉ tail) (same : front ++ c :: back = head ++ c :: tail) :
    front = head ∧ back = tail := by
  induction front generalizing head with
  | nil =>
      cases head with
      | nil => exact ⟨rfl, (List.cons.inj same).2⟩
      | cons d more =>
          have inside : back = more ++ c :: tail := (List.cons.inj same).2
          exact absurd (by rw [inside]; simp) last
  | cons e rest ih =>
      cases head with
      | nil =>
          have inside : rest ++ c :: back = tail := (List.cons.inj same).2
          exact absurd (by rw [← inside]; simp) latest
      | cons d more =>
          obtain ⟨rfl, others⟩ := List.cons.inj same
          obtain ⟨rfl, rfl⟩ := ih others
          exact ⟨rfl, rfl⟩

theorem ReducerKind.underscore_notMem_name (kind : ReducerKind) : '_' ∉ kind.name.toList := by
  cases kind <;> decide

namespace Chart

variable {one other : Chart}

/-- The fields of a chart's axis as they stand in its element key. -/
def joinedFields (chart : Chart) : String :=
  String.intercalate "___" (chart.axis.fields.map flattened)

theorem flattened_of_plain {field : String} (plain : '.' ∉ field.toList) :
    flattened field = field := by
  have same : (field.toList.map fun c => if c = '.' then '_' else c) = field.toList := by
    refine (List.map_congr_left fun c member => if_neg ?_).trans (List.map_id _)
    rintro rfl
    exact plain member
  rw [flattened, same, String.ofList_toList]

/-- The key can be taken apart again into the fields and the kind of reducer. -/
theorem elementKey_inj (same : one.elementKey = other.elementKey) :
    one.joinedFields = other.joinedFields ∧ one.reducer.kind = other.reducer.kind := by
  have shape (chart : Chart) : chart.elementKey.toList =
      chart.joinedFields.toList ++ '_' :: chart.reducer.kind.name.toList := by
    simp [elementKey, joinedFields]
  have split := congrArg String.toList same
  rw [shape, shape] at split
  obtain ⟨fields, names⟩ := Text.append_cons_inj_of_last
    one.reducer.kind.underscore_notMem_name other.reducer.kind.underscore_notMem_name split
  exact ⟨String.toList_inj.mp fields,
    ReducerKind.isFoundByName.injective (String.toList_inj.mp names)⟩

/-- Charts share an element key if and only if they have the same kind of reducer and their fields
are the same once they are flattened and joined. No two kinds of reducer share one, and over single
fields without dots the fields must be the same. -/
theorem elementKey_eq_iff (one other : Chart) :
    (one.elementKey = other.elementKey ↔
        one.reducer.kind = other.reducer.kind ∧
          String.intercalate "___" (one.axis.fields.map flattened) =
            String.intercalate "___" (other.axis.fields.map flattened)) ∧
      (one.reducer.kind ≠ other.reducer.kind → one.elementKey ≠ other.elementKey) ∧
      ∀ field second, one.axis = .single field → other.axis = .single second →
        '.' ∉ field.toList → '.' ∉ second.toList →
          (one.elementKey = other.elementKey ↔
            field = second ∧ one.reducer.kind = other.reducer.kind) := by
  have shared : one.elementKey = other.elementKey ↔
      one.reducer.kind = other.reducer.kind ∧ one.joinedFields = other.joinedFields := by
    constructor
    · exact fun same => (elementKey_inj same).symm
    · rintro ⟨kinds, fields⟩
      rw [elementKey, elementKey, kinds]
      exact congrArg (· ++ "_" ++ other.reducer.kind.name) fields
  refine ⟨shared, fun different same => different (shared.mp same).1, ?_⟩
  intro field second first next plain bare
  have own : one.joinedFields = field := by
    simp [joinedFields, first, Axis.fields, flattened_of_plain plain]
  have others : other.joinedFields = second := by
    simp [joinedFields, next, Axis.fields, flattened_of_plain bare]
  rw [shared, own, others, and_comm]

/-- A field that ends like the name of another kind of reducer. -/
theorem elementKey_eq_iff_suffix :
    (⟨.rowChart, .single "a_Cumulative", .count, .standard⟩ : Chart).elementKey ≠
      (⟨.pieChart, .single "a", .cumulativeCount, .standard⟩ : Chart).elementKey := by
  obtain ⟨_, _, single⟩ := elementKey_eq_iff
    ⟨.rowChart, .single "a_Cumulative", .count, .standard⟩
    ⟨.pieChart, .single "a", .cumulativeCount, .standard⟩
  intro same
  exact absurd ((single _ _ rfl rfl (by decide) (by decide)).mp same).2 (by decide)

/-- The joint between two fields of a scatter plot can stand in a field as well. -/
example : (⟨.scatterPlot, .scatter "a___b" "c" "d", .count, .standard⟩ : Chart).elementKey =
    (⟨.scatterPlot, .scatter "a" "b" "c___d", .count, .standard⟩ : Chart).elementKey := by
  decide +kernel

end Chart

end LinkedViews
