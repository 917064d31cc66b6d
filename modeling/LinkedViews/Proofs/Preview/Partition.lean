import LinkedViews.Proofs.Number.Sum
import LinkedViews.Proofs.Preview.Buckets

/-!
The buckets of a table part its rows. The state of a bucket is what the rows under its key make of
an empty state, in the order of the rows, whatever rows of other keys stand among them.
-/

namespace LinkedViews

namespace Grouping

/-- What a grouping makes of the values under one key. -/
def summary : Grouping → List Binary64 → Binary64
  | keys, values => .ofInt values.length
  | count, values => .ofInt values.length
  | sum _, values => .total values
  | mean _, values =>
    if values = [] then .zero else (Binary64.total values).div (.ofInt values.length)
  | cumulative inner, values => inner.summary values

end Grouping

namespace Aggregate

theorem foldl_count (records : Int) (values : List Binary64) :
    values.foldl add (.count records) = .count (records + values.length) := by
  induction values generalizing records with
  | nil => simp
  | cons value rest ih =>
      rw [List.foldl_cons, add, ih, List.length_cons, Int.add_assoc, Int.natCast_succ,
        Int.add_comm 1]

theorem foldl_sum (total : Binary64) (values : List Binary64) :
    values.foldl add (.sum total) = .sum (values.foldl Binary64.add total) := by
  induction values generalizing total with
  | nil => rfl
  | cons value rest ih => exact ih _

theorem foldl_mean (records : Int) (total : Binary64) (values : List Binary64) :
    values.foldl add (.mean (.ofSum records total)) =
      .mean (.ofSum (records + values.length) (values.foldl Binary64.add total)) := by
  induction values generalizing records total with
  | nil => simp
  | cons value rest ih =>
      rw [List.foldl_cons, List.foldl_cons, List.length_cons, Int.natCast_succ,
        Int.add_comm (rest.length : Int), ← Int.add_assoc]
      exact ih (records + 1) (total.add value)

/-- A state shows the summary of the values that were taken into account. -/
theorem shown_foldl (grouping : Grouping) (values : List Binary64) :
    (values.foldl add (.empty grouping)).shown = grouping.summary values := by
  induction grouping with
  | keys => rw [empty, foldl_count, shown, Grouping.summary, Int.zero_add]
  | count => rw [empty, foldl_count, shown, Grouping.summary, Int.zero_add]
  | sum field =>
      rw [empty, foldl_sum]
      rfl
  | mean field =>
      have start : RunningMean.empty = .ofSum 0 .zero := rfl
      rw [empty, start, foldl_mean, shown, RunningMean.ofSum, Grouping.summary, Int.zero_add]
      simp [Binary64.total]
  | cumulative inner ih => exact ih

end Aggregate

namespace Buckets

variable {empty state : Aggregate} {key other : Key} {value : Binary64}
  {buckets : List (Key × Aggregate)} {entries : List (Key × Binary64)} {projection : Projection}
  {grouping : Grouping} {table : Table} {bucket : Bucket}

/-- The values that come with a key, in their order. -/
def valuesAt (key : Key) (entries : List (Key × Binary64)) : List Binary64 :=
  (entries.filter fun entry => entry.1 = key).map Prod.snd

/-- The rows of a table under a key, in their order. -/
def rowsAt (projection : Projection) (table : Table) (key : Key) : List (List Cell) :=
  table.rows.filter fun row => projection.key table row = key

/-- The numbers of a field in rows of a table. -/
def numbersOf (table : Table) (field : String) (rows : List (List Cell)) : List Binary64 :=
  rows.map fun row => (table.cellOf row field).toNumber

/-! ## One entry after the other -/

/-- What an entry does: buckets of other keys stay, and the one of its key takes its value into
account, on top of the state before or of the empty one. -/
theorem mem_insert_cases (ascending : Ascending (buckets.map Prod.fst))
    (member : (other, state) ∈ insert empty key value buckets) :
    (other ≠ key ∧ (other, state) ∈ buckets) ∨
      (other = key ∧ key ∉ buckets.map Prod.fst ∧ state = empty.add value) ∨
      (other = key ∧ ∃ before, (key, before) ∈ buckets ∧ state = before.add value) := by
  induction buckets with
  | nil =>
      obtain ⟨rfl, rfl⟩ : other = key ∧ state = empty.add value := by simpa [insert] using member
      exact .inr (.inl ⟨rfl, List.not_mem_nil, rfl⟩)
  | cons first rest ih =>
      obtain ⟨own, before⟩ := first
      obtain ⟨above, later⟩ := List.pairwise_cons.mp ascending
      rw [insert] at member
      cases shown : key.compare own with
      | lt =>
          rw [shown] at member
          have absent : ∀ another ∈ ((own, before) :: rest).map Prod.fst, key ≠ another := by
            intro another inside
            obtain rfl | behind := List.mem_cons.mp inside
            · exact ne_of_compare_lt shown
            · exact ne_of_compare_lt (Std.TransCmp.lt_trans shown (above another behind))
          rcases List.mem_cons.mp member with same | inside
          · obtain ⟨rfl, rfl⟩ := Prod.mk.inj same
            exact .inr (.inl ⟨rfl, fun inside => absent other inside rfl, rfl⟩)
          · exact .inl ⟨(absent other (List.mem_map_of_mem inside)).symm, inside⟩
      | eq =>
          obtain rfl := Key.eq_of_compare key own shown
          rw [shown] at member
          rcases List.mem_cons.mp member with same | inside
          · obtain ⟨rfl, rfl⟩ := Prod.mk.inj same
            exact .inr (.inr ⟨rfl, before, List.mem_cons_self, rfl⟩)
          · have less := above other (List.mem_map_of_mem inside)
            exact .inl ⟨(ne_of_compare_lt less).symm, List.mem_cons_of_mem _ inside⟩
      | gt =>
          rw [shown] at member
          have different : own ≠ key := ne_of_compare_lt (Std.OrientedCmp.lt_of_gt shown)
          rcases List.mem_cons.mp member with same | inside
          · obtain ⟨rfl, rfl⟩ := Prod.mk.inj same
            exact .inl ⟨different, List.mem_cons_self⟩
          · rcases ih later inside with ⟨apart, old⟩ | ⟨rfl, new, rfl⟩ | ⟨rfl, previous, old, rfl⟩
            · exact .inl ⟨apart, List.mem_cons_of_mem _ old⟩
            · refine .inr (.inl ⟨rfl, fun inside => ?_, rfl⟩)
              rcases List.mem_cons.mp inside with same | behind
              · exact different same.symm
              · exact new behind
            · exact .inr (.inr ⟨rfl, previous, List.mem_cons_of_mem _ old, rfl⟩)

theorem valuesAt_append_self (key : Key) (value : Binary64) (entries : List (Key × Binary64)) :
    valuesAt key (entries ++ [(key, value)]) = valuesAt key entries ++ [value] := by
  simp [valuesAt]

theorem valuesAt_append_ne (apart : other ≠ key) (value : Binary64)
    (entries : List (Key × Binary64)) :
    valuesAt other (entries ++ [(key, value)]) = valuesAt other entries := by
  simp [valuesAt, apart.symm]

theorem valuesAt_eq_nil (absent : key ∉ entries.map Prod.fst) : valuesAt key entries = [] := by
  rw [valuesAt, List.map_eq_nil_iff, List.filter_eq_nil_iff]
  intro entry member
  simp only [decide_eq_true_eq]
  rintro rfl
  exact absent (List.mem_map_of_mem member)

/-- The state of a bucket is made by the entries of its key alone. -/
theorem state_of_mem_collect (member : (key, state) ∈ collect empty entries) :
    state = (valuesAt key entries).foldl Aggregate.add empty := by
  induction entries using List.reverseRecOn generalizing key state with
  | nil => simp [collect] at member
  | append_singleton entries entry ih =>
      obtain ⟨new, value⟩ := entry
      obtain ⟨ascending, keys⟩ := @collect_spec empty entries
      rw [collect, List.foldl_append] at member
      rcases mem_insert_cases ascending member with
        ⟨apart, old⟩ | ⟨rfl, absent, rfl⟩ | ⟨rfl, before, old, rfl⟩
      · rw [valuesAt_append_ne apart, ih old]
      · rw [valuesAt_append_self, valuesAt_eq_nil (mt (keys _).mpr absent)]
        rfl
      · rw [valuesAt_append_self, List.foldl_append, ← ih old]
        rfl

/-- A bucket shows the summary of the values of its key. -/
theorem shown_collect (grouping : Grouping) (entries : List (Key × Binary64)) :
    (collect (.empty grouping) entries).map (fun (key, state) => Bucket.mk key state.shown) =
      ((collect (.empty grouping) entries).map Prod.fst).map fun key =>
        ⟨key, grouping.summary (valuesAt key entries)⟩ := by
  rw [List.map_map]
  apply List.map_congr_left
  rintro ⟨key, state⟩ member
  have shown : state.shown = grouping.summary (valuesAt key entries) := by
    rw [state_of_mem_collect member, Aggregate.shown_foldl]
  exact congrArg (Bucket.mk key) shown

/-! ## The buckets of a table -/

theorem valuesAt_entries (key : Key) :
    valuesAt key (table.rows.map (entry projection grouping table)) =
      (rowsAt projection table key).map fun row => (entry projection grouping table row).2 := by
  rw [valuesAt, List.filter_map, List.map_map]
  rfl

theorem value_of_mem_ofTable (plain : ∀ inner, grouping ≠ .cumulative inner)
    (member : bucket ∈ ofTable projection grouping table) :
    bucket.value = grouping.summary ((rowsAt projection table bucket.key).map fun row =>
      (entry projection grouping table row).2) := by
  have whole : ofTable projection grouping table =
      (collect (.empty grouping) (table.rows.map (entry projection grouping table))).map
        fun (key, state) => ⟨key, state.shown⟩ := by
    cases grouping with
    | cumulative inner => exact absurd rfl (plain inner)
    | _ => rfl
  rw [whole, shown_collect] at member
  obtain ⟨key, _, rfl⟩ := List.mem_map.mp member
  rw [valuesAt_entries]

theorem ofTable_cumulative {inner : Grouping} (plain : ∀ deeper, inner ≠ .cumulative deeper) :
    ofTable projection (.cumulative inner) table =
      runningTotals (ofTable projection inner table) := by
  cases inner with
  | cumulative deeper => exact absurd rfl (plain deeper)
  | _ => rfl

theorem rowsAt_ne_nil (member : bucket ∈ ofTable projection grouping table) :
    rowsAt projection table bucket.key ≠ [] := by
  obtain ⟨row, inside, own⟩ := mem_ofTable.mp (List.mem_map_of_mem member)
  exact List.ne_nil_of_mem (List.mem_filter.mpr ⟨inside, decide_eq_true own⟩)

/-- The rows under some keys, one key after the other, are the rows whose key is among them. -/
theorem perm_flatMap_rowsAt (projection : Projection) (table : Table) {keys : List Key}
    (nodup : keys.Nodup) :
    (keys.flatMap (rowsAt projection table)).Perm
      (table.rows.filter fun row => projection.key table row ∈ keys) := by
  induction keys with
  | nil => simp
  | cons key rest ih =>
      obtain ⟨fresh, nodup⟩ := List.nodup_cons.mp nodup
      have parted := List.filter_append_perm (fun row => decide (projection.key table row = key))
        (table.rows.filter fun row => projection.key table row ∈ key :: rest)
      have own : (table.rows.filter fun row => projection.key table row ∈ key :: rest).filter
          (fun row => decide (projection.key table row = key)) = rowsAt projection table key := by
        rw [List.filter_filter]
        refine List.filter_congr fun row _ => ?_
        by_cases same : projection.key table row = key <;> simp [same]
      have others : (table.rows.filter fun row => projection.key table row ∈ key :: rest).filter
          (fun row => !decide (projection.key table row = key)) =
          table.rows.filter fun row => projection.key table row ∈ rest := by
        rw [List.filter_filter]
        refine List.filter_congr fun row _ => ?_
        by_cases same : projection.key table row = key <;> simp [same, fresh]
      rw [own, others] at parted
      exact ((ih nodup).append_left _).trans parted

theorem filter_mem_ofTable (projection : Projection) (grouping : Grouping) (table : Table) :
    (table.rows.filter fun row =>
      projection.key table row ∈ (ofTable projection grouping table).map Bucket.key) = table.rows :=
  List.filter_eq_self.mpr fun _ member => decide_eq_true (key_mem_ofTable projection grouping member)

/-- Every row is under the key of one bucket. -/
theorem sum_length_rowsAt (projection : Projection) (grouping : Grouping) (table : Table) :
    ((ofTable projection grouping table).map fun bucket =>
      (rowsAt projection table bucket.key).length).sum = table.rowCount := by
  have same := (perm_flatMap_rowsAt projection table
    (ascending_ofTable projection grouping table).nodup).length_eq
  rw [filter_mem_ofTable, List.length_flatMap, List.map_map] at same
  exact same

/-! ## Running totals -/

/-- Whether buckets hold the totals of others up to each of their keys. -/
structure Accumulates (buckets inner : List Bucket) : Prop where
  keys : buckets.map Bucket.key = inner.map Bucket.key
  values : ∀ (index : Nat) (bucket : Bucket), buckets[index]? = some bucket →
    bucket.value = .total ((inner.take (index + 1)).map Bucket.value)

theorem getElem?_totalsFrom (start : Binary64) (buckets : List Bucket) (index : Nat) :
    (totalsFrom start buckets)[index]? = (buckets[index]?).map fun bucket =>
      ⟨bucket.key, ((buckets.take (index + 1)).map Bucket.value).foldl Binary64.add start⟩ := by
  induction buckets generalizing start index with
  | nil => rfl
  | cons first rest ih =>
      cases index with
      | zero => simp [totalsFrom]
      | succ index => simpa [totalsFrom] using ih (start.add first.value) index

theorem accumulates_runningTotals (inner : List Bucket) :
    Accumulates (runningTotals inner) inner where
  keys := map_key_totalsFrom ..
  values := by
    intro index bucket found
    rw [runningTotals, getElem?_totalsFrom] at found
    obtain ⟨_, _, rfl⟩ := Option.map_eq_some_iff.mp found
    rfl

/-! ## The partition -/

/-- What the values of buckets are to the rows under their keys. -/
def Summarizes (projection : Projection) (table : Table) (buckets : List Bucket) : Reducer → Prop
  | .none | .count =>
    (∀ bucket ∈ buckets, bucket.value = .ofInt (rowsAt projection table bucket.key).length) ∧
      (table.rowCount ≤ 2 ^ 53 →
        Binary64.total (buckets.map Bucket.value) = .ofInt table.rowCount)
  | .sum field =>
    ∀ bucket ∈ buckets,
      bucket.value = .total (numbersOf table field (rowsAt projection table bucket.key))
  | .mean field =>
    ∀ bucket ∈ buckets, bucket.value =
      (Binary64.total (numbersOf table field (rowsAt projection table bucket.key))).div
        (.ofInt (rowsAt projection table bucket.key).length)
  | .cumulativeCount => Accumulates buckets (ofTable projection .count table)
  | .cumulativeSum field => Accumulates buckets (ofTable projection (.sum field) table)

/-- Buckets that part the rows of a table by their keys, and hold what a reducer makes of them. -/
structure Partitions (projection : Projection) (reducer : Reducer) (table : Table)
    (buckets : List Bucket) : Prop where
  ascending : Ascending (buckets.map Bucket.key)
  keys : ∀ key, key ∈ buckets.map Bucket.key ↔ ∃ row ∈ table.rows, projection.key table row = key
  rows : (buckets.map fun bucket => (rowsAt projection table bucket.key).length).sum =
    table.rowCount
  values : Summarizes projection table buckets reducer

theorem summarizes_count (plain : ∀ inner, grouping ≠ .cumulative inner)
    (counts : ∀ values, grouping.summary values = .ofInt values.length) :
    Summarizes projection table (ofTable projection grouping table) .count := by
  have lengths : ∀ bucket ∈ ofTable projection grouping table,
      bucket.value = .ofInt (rowsAt projection table bucket.key).length := by
    intro bucket member
    rw [value_of_mem_ofTable plain member, counts, List.length_map]
  refine ⟨lengths, fun small => ?_⟩
  have rows := sum_length_rowsAt projection grouping table
  have values : (ofTable projection grouping table).map Bucket.value =
      ((ofTable projection grouping table).map fun bucket =>
        (rowsAt projection table bucket.key).length).map fun n : Nat => .ofInt n := by
    rw [List.map_map]
    exact List.map_congr_left lengths
  rw [values, Binary64.total_ofInt (rows ▸ small), rows]

theorem summarizes_ofTable (projection : Projection) (reducer : Reducer) (table : Table) :
    Summarizes projection table (ofTable projection (.ofReducer reducer) table) reducer := by
  cases reducer with
  | none => exact summarizes_count (by simp [Grouping.ofReducer]) fun _ => rfl
  | count => exact summarizes_count (by simp [Grouping.ofReducer]) fun _ => rfl
  | sum field =>
      exact fun bucket member => value_of_mem_ofTable (by simp [Grouping.ofReducer]) member
  | mean field =>
      intro bucket member
      rw [value_of_mem_ofTable (by simp [Grouping.ofReducer]) member, Grouping.ofReducer,
        Grouping.summary, if_neg (by simpa using rowsAt_ne_nil member), List.length_map]
      rfl
  | cumulativeCount =>
      have totals := accumulates_runningTotals (ofTable projection .count table)
      rwa [← ofTable_cumulative (by simp)] at totals
  | cumulativeSum field =>
      have totals := accumulates_runningTotals (ofTable projection (.sum field) table)
      rwa [← ofTable_cumulative (by simp)] at totals

/-- The buckets of a table are in ascending order of the keys of its rows, one for each. They show
the number of the rows under their key, or the sum or the mean of a field over just those rows, in
the order of the rows; or the totals of such numbers or sums up to their key. -/
theorem partitions_ofTable (projection : Projection) (reducer : Reducer) (table : Table) :
    Partitions projection reducer table (ofTable projection (.ofReducer reducer) table) where
  ascending := ascending_ofTable ..
  keys _ := mem_ofTable
  rows := sum_length_rowsAt ..
  values := summarizes_ofTable projection reducer table

end Buckets

end LinkedViews
