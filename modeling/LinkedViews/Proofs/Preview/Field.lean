import LinkedViews.Proofs.Browser.Accessor
import LinkedViews.Proofs.Preview.Buckets

/-!
Keys of one field. They are ordered as scripts order the values of the field, but for values whose
keys are of different kinds, for zeros with and without a sign, and for texts with characters
beyond the basic plane.
-/

namespace LinkedViews

namespace Browser

variable {a b : Value} {x y : Binary64}

theorem rank_of_isZero (zero : x.isZero = true) : x.rank = if x.isNegative then -1 else 0 := by
  have none : x.magnitude = 0 := of_decide_eq_true zero
  simp [Binary64.rank, none]

theorem rank_of_not_isZero (nonzero : ¬ x.isZero = true) :
    order x = x.rank ∧ (x.rank < -1 ∨ 0 < x.rank) := by
  have some : x.magnitude ≠ 0 := fun none => nonzero (decide_eq_true none)
  refine ⟨if_neg nonzero, ?_⟩
  unfold Binary64.rank
  split <;> omega

theorem order_of_isZero (zero : x.isZero = true) : order x = 0 := if_pos zero

/-- Ranks tell the two zeros apart and order all other numbers by their value. -/
theorem compare_rank_iff (x y : Binary64) :
    compare x.rank y.rank = compare (order x) (order y) ↔
      ¬ (x.isZero = true ∧ y.isZero = true ∧ x ≠ y) := by
  rw [Lexicographic.compare_eq_compare_iff]
  by_cases one : x.isZero = true
  · have near := rank_of_isZero one
    rw [order_of_isZero one]
    by_cases two : y.isZero = true
    · have same : x = y ↔ x.rank = y.rank := ⟨congrArg _, Key.rank_injective⟩
      rw [order_of_isZero two, Ne, same]
      simp only [one, two, true_and]
      omega
    · obtain ⟨value, far⟩ := rank_of_not_isZero two
      refine iff_of_true ?_ fun zeros => two zeros.2.1
      rw [value]
      split at near <;> omega
  · obtain ⟨value, far⟩ := rank_of_not_isZero one
    refine iff_of_true ?_ fun zeros => one zeros.1
    rw [value]
    by_cases two : y.isZero = true
    · have near := rank_of_isZero two
      rw [order_of_isZero two]
      split at near <;> omega
    · rw [(rank_of_not_isZero two).1]
      exact ⟨Iff.rfl, Iff.rfl⟩

namespace Value

/-- Whether the keys of two values are ordered otherwise than the values. Keys of different kinds
are ordered by kind, so their numbers have to be in the same order. -/
def Differs : Value → Value → Prop
  | text s, text t => Diverges s.toList t.toList
  | a, b =>
    if a.key.kindRank < b.key.kindRank then order b.toNumber ≤ order a.toNumber
    else if b.key.kindRank < a.key.kindRank then order a.toNumber ≤ order b.toNumber
    else a.toNumber.isZero = true ∧ b.toNumber.isZero = true ∧ a.toNumber ≠ b.toNumber

theorem differs_eq (mixed : ¬ ∃ s t, a = text s ∧ b = text t) :
    Differs a b = (if a.key.kindRank < b.key.kindRank then order b.toNumber ≤ order a.toNumber
      else if b.key.kindRank < a.key.kindRank then order a.toNumber ≤ order b.toNumber
      else a.toNumber.isZero = true ∧ b.toNumber.isZero = true ∧ a.toNumber ≠ b.toNumber) := by
  cases a <;> cases b <;> first | rfl | exact absurd ⟨_, _, rfl, rfl⟩ mixed

theorem ordering_eq (mixed : ¬ ∃ s t, a = text s ∧ b = text t) :
    ordering a b = compare (order a.toNumber) (order b.toNumber) := by
  cases a <;> cases b <;> first | rfl | exact absurd ⟨_, _, rfl, rfl⟩ mixed

theorem compare_key_of_lt (less : a.key.kindRank < b.key.kindRank) :
    a.key.compare b.key = compare (order a.toNumber) (order b.toNumber) ↔
      ¬ order b.toNumber ≤ order a.toNumber := by
  rw [Key.compare_of_ne (Nat.ne_of_lt less), compare_lt_iff_lt.mpr less, eq_comm,
    compare_lt_iff_lt, Int.not_le]

theorem compare_key_of_gt (greater : b.key.kindRank < a.key.kindRank) :
    a.key.compare b.key = compare (order a.toNumber) (order b.toNumber) ↔
      ¬ order a.toNumber ≤ order b.toNumber := by
  rw [Key.compare_of_ne (Nat.ne_of_gt greater), compare_gt_iff_gt.mpr greater, eq_comm,
    compare_gt_iff_gt, Int.not_le]

theorem compare_key_booleans (c d : Bool) :
    (boolean c).key.compare (boolean d).key =
        compare (order (boolean c).toNumber) (order (boolean d).toNumber) ↔
      ¬ ((boolean c).toNumber.isZero = true ∧ (boolean d).toNumber.isZero = true ∧
        (boolean c).toNumber ≠ (boolean d).toNumber) := by
  cases c <;> cases d <;> decide +kernel

theorem compare_key_numbers (one : a.key = .number a.toNumber) (two : b.key = .number b.toNumber) :
    a.key.compare b.key = compare (order a.toNumber) (order b.toNumber) ↔
      ¬ (a.toNumber.isZero = true ∧ b.toNumber.isZero = true ∧ a.toNumber ≠ b.toNumber) := by
  rw [one, two, Key.compare]
  exact compare_rank_iff a.toNumber b.toNumber

theorem compare_key_of_eq (mixed : ¬ ∃ s t, a = text s ∧ b = text t)
    (same : a.key.kindRank = b.key.kindRank) :
    a.key.compare b.key = compare (order a.toNumber) (order b.toNumber) ↔
      ¬ (a.toNumber.isZero = true ∧ b.toNumber.isZero = true ∧ a.toNumber ≠ b.toNumber) := by
  cases a <;> cases b <;>
    first
    | exact compare_key_booleans _ _
    | exact compare_key_numbers rfl rfl
    | exact absurd ⟨_, _, rfl, rfl⟩ mixed
    | exact absurd same (by simp [key, Key.kindRank])

/-- Keys are ordered as their values but for those that differ. -/
theorem compare_key_iff (a b : Value) : a.key.compare b.key = ordering a b ↔ ¬ Differs a b := by
  by_cases texts : ∃ s t, a = text s ∧ b = text t
  · obtain ⟨s, t, rfl, rfl⟩ := texts
    exact Iff.trans eq_comm (compare_units_iff s.toList t.toList)
  · rw [ordering_eq texts, differs_eq texts]
    split
    · exact compare_key_of_lt ‹_›
    · split
      · exact compare_key_of_gt ‹_›
      · exact compare_key_of_eq texts (by omega)

theorem less?_eq_false (comparable : Comparable a b) :
    (less? a b = some false ∧ less? b a = some false) ↔ ordering a b = .eq := by
  obtain ⟨front, back⟩ := less?_eq comparable
  rw [front, back]
  cases ordering a b <;> decide

theorem isNaN_of_comparable (comparable : Comparable (number x) (number y)) :
    x.isNaN = false ∧ y.isNaN = false := by
  have known : (if x.isNaN || y.isNaN then none else some (decide (order x < order y))).isSome =
      true := comparable
  split at known
  · contradiction
  · simpa using ‹¬ (x.isNaN || y.isNaN) = true›

end Value

end Browser

namespace Projection

open Browser Table

variable {projection : Projection} {table : Table} {categorical : List String}
  {bytes : List UInt8} {name : String} {front back : List Cell}

/-- Keys of one field are those of the values that accessors give for decoded records, if scripts make
the same numbers of all texts from which numbers are made. -/
theorem key_eq_key (single : projection = .raw name ∨ projection = .numeric name)
    (parsed : ofDelimited categorical bytes = .ok table)
    (once : table.columnNames.count name = 1) (first : front ∈ table.labelled.rows)
    (second : back ∈ table.labelled.rows)
    (common : projection = .numeric name → ∀ row ∈ [front, back], ∀ s,
      table.labelled.cellOf row name = .text s → ¬ IsForeign s) :
    ∃ v w, projection.value? (record table.labelled.columns front) = some v ∧
      projection.value? (record table.labelled.columns back) = some w ∧
      (Value.Comparable v w → projection.key table.labelled front = v.key ∧
        projection.key table.labelled back = w.key) := by
  have here := member_record parsed once first
  have there := member_record parsed once second
  obtain rfl | rfl := single
  · refine ⟨_, _, here, there, fun _ => ?_⟩
    exact ⟨Cell.ofCell_eq_key _, Cell.ofCell_eq_key _⟩
  · refine ⟨_, _, congrArg (Option.map _) here, congrArg (Option.map _) there, fun comparable => ?_⟩
    obtain ⟨one, two⟩ := Value.isNaN_of_comparable comparable
    have plain := common rfl
    exact
      ⟨congrArg Key.number (Cell.toNumber_eq_value (plain front (by simp)) one),
        congrArg Key.number (Cell.toNumber_eq_value (plain back (by simp)) two)⟩

/-- Two rows whose values of a field can be compared have keys in the same order if and only if the
values do not differ, and then they are in one bucket if and only if neither value is less. -/
theorem agrees_compare_key (single : projection = .raw name ∨ projection = .numeric name)
    (parsed : ofDelimited categorical bytes = .ok table)
    (once : table.columnNames.count name = 1) (first : front ∈ table.labelled.rows)
    (second : back ∈ table.labelled.rows)
    (common : projection = .numeric name → ∀ row ∈ [front, back], ∀ s,
      table.labelled.cellOf row name = .text s → ¬ IsForeign s) (grouping : Grouping) :
    ∃ v w, projection.value? (record table.labelled.columns front) = some v ∧
      projection.value? (record table.labelled.columns back) = some w ∧
      (Value.Comparable v w →
        (Value.Agrees ((projection.key table.labelled front).compare
          (projection.key table.labelled back)) v w ↔ ¬ Value.Differs v w) ∧
        (¬ Value.Differs v w →
          ((∃ bucket ∈ Buckets.ofTable projection grouping table.labelled,
              bucket.key.compare (projection.key table.labelled front) = .eq ∧
              bucket.key.compare (projection.key table.labelled back) = .eq) ↔
            Value.less? v w = some false ∧ Value.less? w v = some false))) ∧
      ∃! index : Nat, ∃ bucket,
        (Buckets.ofTable projection grouping table.labelled)[index]? = some bucket ∧
          bucket.key.compare (projection.key table.labelled front) = .eq := by
  obtain ⟨v, w, here, there, keys⟩ := key_eq_key single parsed once first second common
  refine ⟨v, w, here, there, fun comparable => ?_,
    Buckets.existsUnique_bucket projection grouping first⟩
  obtain ⟨one, two⟩ := keys comparable
  refine ⟨?_, fun same => ?_⟩
  · rw [Value.agrees_iff comparable, one, two]
    exact Value.compare_key_iff v w
  · rw [Buckets.exists_bucket_iff projection grouping first, Value.less?_eq_false comparable, one,
      two, (Value.compare_key_iff v w).mpr same]

theorem agrees_compare_key_texts :
    Value.Agrees
      (((raw "g").key ⟨[⟨"g", .text⟩], [[.text "a"], [.text "b"]]⟩ [.text "a"]).compare
        ((raw "g").key ⟨[⟨"g", .text⟩], [[.text "a"], [.text "b"]]⟩ [.text "b"]))
      (.text "a") (.text "b") := by
  have parsed : ofDelimited [] (Text.Utf8.encode "g\na\nb\n".toList) =
      .ok ⟨[⟨"g", .text⟩], [[.text "a"], [.text "b"]]⟩ := eq_ok_of_toOption (by decide +kernel)
  have single : raw "g" = raw "g" ∨ raw "g" = numeric "g" := .inl rfl
  obtain ⟨v, w, here, there, both, _⟩ := agrees_compare_key single parsed (by decide)
    (show [Cell.text "a"] ∈ _ by decide) (show [Cell.text "b"] ∈ _ by decide) (by simp) .count
  obtain rfl : Value.text "a" = v := Option.some.inj here
  obtain rfl : Value.text "b" = w := Option.some.inj there
  have basic : ¬ Crosses 'a' 'b' := by
    unfold Crosses
    decide
  have same : ¬ Value.Differs (.text "a") (.text "b") :=
    fun differs => basic ((diverges_cons (by decide)).mp differs)
  exact (both (by decide +kernel)).1.mpr same

/-- In a column of booleans the program has null behind all others, and scripts have it before
`true`. -/
theorem not_agrees_null :
    ∃ table, ofDelimited [] (Text.Utf8.encode "a,b\ntrue,1\n,2\n".toList) = .ok table ∧
      table.columnNames.count "a" = 1 ∧
      ∃ front back, table.labelled.rows = [front, back] ∧
        (raw "a").value? (record table.labelled.columns front) = some (.boolean true) ∧
        (raw "a").value? (record table.labelled.columns back) = some .null ∧
        Value.Comparable (.boolean true) .null ∧
        ((raw "a").key table.labelled front).compare ((raw "a").key table.labelled back) = .lt ∧
        Value.less? .null (.boolean true) = some true ∧
        ¬ Value.Agrees .lt (.boolean true) .null := by
  refine ⟨⟨[⟨"a", .boolean⟩, ⟨"b", .integer⟩], [[.boolean true, .integer 1], [.null, .integer 2]]⟩,
    eq_ok_of_toOption (by decide +kernel), by decide, _, _, rfl, rfl, rfl, ?_, rfl, ?_, ?_⟩
  · decide +kernel
  · decide +kernel
  · decide +kernel

end Projection

end LinkedViews
