import LinkedViews.Proofs.Preview.Partition

/-!
Running totals, told by the rows. The buckets up to a key are those of the rows up to that key, so a
bucket of totals holds what just these rows come to, as long as nothing is rounded.
-/

namespace LinkedViews.Buckets

variable {projection : Projection} {table : Table} {keys : List Key} {key other : Key}
  {bucket : Bucket} {buckets inner : List Bucket} {weight : List Cell → Int} {grouping : Grouping}
  {index : Nat}

/-- The rows of a table whose keys come no later than a key, in their order. -/
def rowsUpTo (projection : Projection) (table : Table) (key : Key) : List (List Cell) :=
  table.rows.filter fun row => ((projection.key table row).compare key).isLE

/-- Buckets of which each holds what the rows up to its key come to, and the last what all rows
come to. -/
structure HoldsTotals (projection : Projection) (table : Table) (amount : List (List Cell) → Int)
    (buckets : List Bucket) : Prop where
  ascending : Ascending (buckets.map Bucket.key)
  keys : ∀ key, key ∈ buckets.map Bucket.key ↔ ∃ row ∈ table.rows, projection.key table row = key
  upTo : ∀ bucket ∈ buckets, bucket.value = .ofInt (amount (rowsUpTo projection table bucket.key))
  last : ∃ bucket, buckets.getLast? = some bucket ∧ bucket.value = .ofInt (amount table.rows)

/-! ## The rows of several keys -/

theorem mem_rowsUpTo {row : List Cell} : row ∈ rowsUpTo projection table key ↔
    row ∈ table.rows ∧ ((projection.key table row).compare key).isLE = true :=
  List.mem_filter

theorem sum_rowsAt {M : Type} [AddCommMonoid M] (amount : List Cell → M) (nodup : keys.Nodup) :
    (keys.map fun key => ((rowsAt projection table key).map amount).sum).sum =
      ((table.rows.filter fun row => projection.key table row ∈ keys).map amount).sum := by
  rw [← ((perm_flatMap_rowsAt projection table nodup).map amount).sum_eq, List.map_flatMap,
    List.flatMap_def, List.sum_flatten, List.map_map]
  rfl

/-- The first keys are those that come no later than the last of them. -/
theorem mem_take_iff (ascending : Ascending keys) (found : keys[index]? = some key) :
    other ∈ keys.take (index + 1) ↔ other ∈ keys ∧ (other.compare key).isLE = true := by
  induction keys generalizing index with
  | nil => simp at found
  | cons first rest ih =>
      obtain ⟨above, later⟩ := List.pairwise_cons.mp ascending
      cases index with
      | zero =>
          obtain rfl : first = key := by simpa using found
          constructor
          · intro member
            obtain rfl : other = first := by simpa using member
            exact ⟨List.mem_cons_self, by rw [Key.compare_self]; rfl⟩
          · rintro ⟨member, le⟩
            obtain rfl | behind := List.mem_cons.mp member
            · simp
            · rw [Std.OrientedCmp.gt_of_lt (above other behind)] at le
              contradiction
      | succ index =>
          have less : first.compare key = .lt := above key (List.mem_of_getElem? found)
          rw [List.take_succ_cons, List.mem_cons, List.mem_cons, ih later found]
          constructor
          · rintro (rfl | ⟨member, le⟩)
            · exact ⟨.inl rfl, by rw [less]; rfl⟩
            · exact ⟨.inr member, le⟩
          · rintro ⟨rfl | member, le⟩
            · exact .inl rfl
            · exact .inr ⟨member, le⟩

theorem filter_take (ascending : Ascending keys) (found : keys[index]? = some key)
    (covers : ∀ row ∈ table.rows, projection.key table row ∈ keys) :
    (table.rows.filter fun row => projection.key table row ∈ keys.take (index + 1)) =
      rowsUpTo projection table key := by
  refine List.filter_congr fun row member => ?_
  rw [Bool.eq_iff_iff, decide_eq_true_eq, mem_take_iff ascending found,
    and_iff_right (covers row member)]

theorem natAbs_sum_le (values : List Int) : values.sum.natAbs ≤ (values.map Int.natAbs).sum :=
  List.le_sum_of_subadditive Int.natAbs (Nat.le_of_eq Int.natAbs_zero) Int.natAbs_add_le values

theorem sum_natAbs_rowsAt_le (nodup : keys.Nodup) :
    ((keys.map fun key => ((rowsAt projection table key).map weight).sum).map Int.natAbs).sum ≤
      (table.rows.map fun row => (weight row).natAbs).sum := by
  rw [List.map_map]
  calc
    _ ≤ (keys.map fun key =>
          ((rowsAt projection table key).map fun row => (weight row).natAbs).sum).sum := by
      refine List.sum_le_sum fun key _ => ?_
      have each := natAbs_sum_le ((rowsAt projection table key).map weight)
      rwa [List.map_map] at each
    _ = ((table.rows.filter fun row => projection.key table row ∈ keys).map fun row =>
          (weight row).natAbs).sum := sum_rowsAt _ nodup
    _ ≤ (table.rows.map fun row => (weight row).natAbs).sum :=
      (List.filter_sublist.map _).sum_le_sum fun _ _ => Nat.zero_le _

/-! ## The totals -/

/-- The total over the buckets up to a key is the total over the rows up to that key. -/
theorem value_of_mem_runningTotals (ascending : Ascending (inner.map Bucket.key))
    (covers : ∀ row ∈ table.rows, projection.key table row ∈ inner.map Bucket.key)
    (values : ∀ bucket ∈ inner,
      bucket.value = .ofInt ((rowsAt projection table bucket.key).map weight).sum)
    (small : (table.rows.map fun row => (weight row).natAbs).sum ≤ 2 ^ 53)
    (member : bucket ∈ runningTotals inner) :
    bucket.value = .ofInt ((rowsUpTo projection table bucket.key).map weight).sum := by
  obtain ⟨same, totals⟩ := accumulates_runningTotals inner
  obtain ⟨index, found⟩ := List.mem_iff_getElem?.mp member
  have place : (inner.map Bucket.key)[index]? = some bucket.key := by
    rw [← same, List.getElem?_map, found, Option.map_some]
  have nodup : ((inner.map Bucket.key).take (index + 1)).Nodup :=
    ascending.nodup.sublist (List.take_sublist ..)
  have shown : (inner.take (index + 1)).map Bucket.value =
      (((inner.map Bucket.key).take (index + 1)).map fun key =>
        ((rowsAt projection table key).map weight).sum).map .ofInt := by
    rw [← List.map_take, List.map_map, List.map_map]
    exact List.map_congr_left fun bucket inside => values bucket (List.mem_of_mem_take inside)
  rw [totals index bucket found, shown,
    Binary64.total_map_ofInt (Nat.le_trans (sum_natAbs_rowsAt_le nodup) small), sum_rowsAt _ nodup,
    filter_take ascending place covers]

theorem rowsUpTo_of_getLast? (ascending : Ascending keys) (last : keys.getLast? = some key)
    (covers : ∀ row ∈ table.rows, projection.key table row ∈ keys) :
    rowsUpTo projection table key = table.rows := by
  obtain ⟨before, rfl⟩ := List.getLast?_eq_some_iff.mp last
  refine List.filter_eq_self.mpr fun row member => ?_
  rcases List.mem_append.mp (covers row member) with earlier | own
  · rw [(List.pairwise_append.mp ascending).2.2 _ earlier key List.mem_cons_self]
    rfl
  · rw [List.mem_singleton.mp own, Key.compare_self]
    rfl

theorem rowsUpTo_sublist (projection : Projection) (table : Table)
    (less : key.compare other = .lt) :
    (rowsUpTo projection table key).Sublist (rowsUpTo projection table other) :=
  List.monotone_filter_right _ fun _ le => Std.TransCmp.isLE_trans le (by rw [less]; rfl)

theorem length_rowsUpTo_lt (less : key.compare other = .lt)
    (held : ∃ row ∈ table.rows, projection.key table row = other) :
    (rowsUpTo projection table key).length < (rowsUpTo projection table other).length := by
  obtain ⟨row, member, rfl⟩ := held
  have more := rowsUpTo_sublist projection table less
  refine Nat.lt_of_not_le fun short => ?_
  have own : row ∈ rowsUpTo projection table (projection.key table row) :=
    mem_rowsUpTo.mpr ⟨member, by rw [Key.compare_self]; rfl⟩
  rw [← more.eq_of_length_le short] at own
  have le := (mem_rowsUpTo.mp own).2
  rw [Std.OrientedCmp.gt_of_lt less] at le
  contradiction

/-- Running totals of what is added up row by row. -/
theorem holdsTotals_runningTotals (weight : List Cell → Int) {amount : List (List Cell) → Int}
    (filled : table.rows ≠ []) (additive : ∀ rows, amount rows = (rows.map weight).sum)
    (values : ∀ bucket ∈ ofTable projection grouping table,
      bucket.value = .ofInt (amount (rowsAt projection table bucket.key)))
    (small : (table.rows.map fun row => (weight row).natAbs).sum ≤ 2 ^ 53) :
    HoldsTotals projection table amount (runningTotals (ofTable projection grouping table)) := by
  have same : (runningTotals (ofTable projection grouping table)).map Bucket.key =
      (ofTable projection grouping table).map Bucket.key := map_key_totalsFrom ..
  have covers : ∀ row ∈ table.rows,
      projection.key table row ∈ (ofTable projection grouping table).map Bucket.key :=
    fun _ member => key_mem_ofTable projection grouping member
  have ascending := ascending_ofTable projection grouping table
  have upTo : ∀ bucket ∈ runningTotals (ofTable projection grouping table),
      bucket.value = .ofInt (amount (rowsUpTo projection table bucket.key)) := by
    intro bucket member
    rw [additive]
    exact value_of_mem_runningTotals ascending covers
      (fun bucket inside => (values bucket inside).trans (by rw [additive])) small member
  refine ⟨same ▸ ascending, fun key => same ▸ mem_ofTable, upTo, ?_⟩
  cases last : (runningTotals (ofTable projection grouping table)).getLast? with
  | none =>
      obtain ⟨row, member⟩ := List.exists_mem_of_ne_nil _ filled
      have inside := covers row member
      rw [← same, List.getLast?_eq_none_iff.mp last] at inside
      contradiction
  | some bucket =>
      have key : ((ofTable projection grouping table).map Bucket.key).getLast? =
          some bucket.key := by
        rw [← same, List.getLast?_map, last, Option.map_some]
      refine ⟨bucket, rfl, ?_⟩
      rw [upTo bucket (List.mem_of_getLast? last), rowsUpTo_of_getLast? ascending key covers]

/-- Where what the rows come to grows from key to key, so do the values of the buckets. -/
theorem HoldsTotals.pairwise {amount : List (List Cell) → Int} (order : Int → Int → Prop)
    (holds : HoldsTotals projection table amount buckets)
    (ranks : ∀ a b : Int, a.natAbs ≤ 2 ^ 53 → b.natAbs ≤ 2 ^ 53 → order a b →
      order (Binary64.ofInt a).rank (Binary64.ofInt b).rank)
    (small : ∀ key, (amount (rowsUpTo projection table key)).natAbs ≤ 2 ^ 53)
    (grows : ∀ key other, key.compare other = .lt →
      (∃ row ∈ table.rows, projection.key table row = other) →
      order (amount (rowsUpTo projection table key)) (amount (rowsUpTo projection table other))) :
    buckets.Pairwise fun a b => order a.value.rank b.value.rank := by
  refine (List.pairwise_map.mp holds.ascending).imp_of_mem fun one two less => ?_
  rw [holds.upTo _ one, holds.upTo _ two]
  exact ranks _ _ (small _) (small _)
    (grows _ _ less ((holds.keys _).mp (List.mem_map_of_mem two)))

/-! ## Counts and sums -/

/-- The sum of a field of whole numbers over rows. -/
def sumOf (table : Table) (field : String) (rows : List (List Cell)) : Int :=
  ((numbersOf table field rows).map Binary64.toInt).sum

theorem natAbs_sumOf_le {field : String} (key : Key) :
    (sumOf table field (rowsUpTo projection table key)).natAbs ≤
      Binary64.spread (numbersOf table field table.rows) := by
  refine Nat.le_trans (natAbs_sum_le _) ?_
  rw [← Binary64.spread_eq, Binary64.spread, Binary64.spread, numbersOf, numbersOf]
  exact ((List.filter_sublist.map _).map _).sum_le_sum fun _ _ => Nat.zero_le _

theorem sumOf_le {field : String} (positive : ∀ x ∈ numbersOf table field table.rows, 0 ≤ x.toInt)
    (less : key.compare other = .lt) :
    sumOf table field (rowsUpTo projection table key) ≤
      sumOf table field (rowsUpTo projection table other) := by
  refine (((rowsUpTo_sublist projection table less).map _).map _).sum_le_sum fun value member => ?_
  obtain ⟨x, inside, rfl⟩ := List.mem_map.mp member
  exact positive x ((List.filter_sublist.map _).subset inside)

theorem holdsTotals_count (projection : Projection) (filled : table.rows ≠ [])
    (few : table.rowCount ≤ 2 ^ 53) :
    HoldsTotals projection table (fun rows => rows.length)
      (ofTable projection (.ofReducer .cumulativeCount) table) := by
  have lengths := (summarizes_ofTable projection .count table).1
  have plain : ∀ deeper, Grouping.count ≠ .cumulative deeper := by simp
  rw [Grouping.ofReducer, ofTable_cumulative plain]
  refine holdsTotals_runningTotals (fun _ => 1) filled (by simp) lengths ?_
  simpa [Table.rowCount] using few

theorem holdsTotals_sum (projection : Projection) {field : String} (filled : table.rows ≠ [])
    (exact : Binary64.Exact (numbersOf table field table.rows)) :
    HoldsTotals projection table (sumOf table field)
      (ofTable projection (.ofReducer (.cumulativeSum field)) table) := by
  have plain : ∀ deeper, Grouping.sum field ≠ .cumulative deeper := by simp
  rw [Grouping.ofReducer, ofTable_cumulative plain]
  refine holdsTotals_runningTotals (fun row => (table.cellOf row field).toNumber.toInt) filled
    ?_ ?_ ?_
  · intro rows
    rw [sumOf, numbersOf, List.map_map]
    rfl
  · intro bucket member
    have own : Binary64.Exact (numbersOf table field (rowsAt projection table bucket.key)) :=
      exact.sublist (List.filter_sublist.map _)
    exact (summarizes_ofTable projection (.sum field) table bucket member).trans
      (Binary64.total_of_exact own)
  · have spread := exact.small
    rw [Binary64.spread, numbersOf, List.map_map] at spread
    exact spread

/-- Cumulative buckets hold what all rows up to their keys come to, and the last one what all rows
come to. Counts grow from bucket to bucket, as every bucket has a row, and sums do not shrink where
no row takes anything away. -/
theorem holdsTotals_ofTable (projection : Projection) (table : Table) (filled : table.rows ≠ []) :
    (table.rowCount ≤ 2 ^ 53 →
      HoldsTotals projection table (fun rows => rows.length)
          (ofTable projection (.ofReducer .cumulativeCount) table) ∧
        (ofTable projection (.ofReducer .cumulativeCount) table).Pairwise fun a b =>
          a.value.rank < b.value.rank) ∧
      ∀ field, Binary64.Exact (numbersOf table field table.rows) →
        HoldsTotals projection table (sumOf table field)
            (ofTable projection (.ofReducer (.cumulativeSum field)) table) ∧
          ((∀ x ∈ numbersOf table field table.rows, 0 ≤ x.toInt) →
            (ofTable projection (.ofReducer (.cumulativeSum field)) table).Pairwise fun a b =>
              a.value.rank ≤ b.value.rank) := by
  constructor
  · intro few
    have holds := holdsTotals_count projection filled few
    have ranks : ∀ a b : Int, a.natAbs ≤ 2 ^ 53 → b.natAbs ≤ 2 ^ 53 → a < b →
        (Binary64.ofInt a).rank < (Binary64.ofInt b).rank :=
      fun a b one two => (Binary64.rank_ofInt_lt_iff one two).mpr
    refine ⟨holds, holds.pairwise (· < ·) ranks (fun key => ?_) fun key other less held => ?_⟩
    · rw [Int.natAbs_natCast]
      exact Nat.le_trans (List.length_filter_le _ _) few
    · exact Int.ofNat_lt.mpr (length_rowsUpTo_lt less held)
  · intro field exact
    have holds := holdsTotals_sum projection filled exact
    refine ⟨holds, fun positive => holds.pairwise (· ≤ ·) ?_
      (fun key => Nat.le_trans (natAbs_sumOf_le key) exact.small)
      fun key other less _ => sumOf_le positive less⟩
    intro a b one two le
    exact Int.not_lt.mp (mt (Binary64.rank_ofInt_lt_iff two one).mp (Int.not_lt.mpr le))

/-- Two rows share a key, and what negative zero and null add is nothing. -/
def tiedRows : Table :=
  ⟨[⟨"k", .text⟩, ⟨"v", .real⟩],
    [[.text "b", .real ⟨9223372036854775808⟩], [.text "a", .integer 3],
      [.text "b", .integer 4], [.null, .null]]⟩

theorem holdsTotals_ofTable_ties :
    HoldsTotals (.raw "k") tiedRows (fun rows => rows.length)
        (ofTable (.raw "k") (.ofReducer .cumulativeCount) tiedRows) ∧
      (∃ bucket, (ofTable (.raw "k") (.ofReducer (.cumulativeSum "v")) tiedRows).getLast? =
          some bucket ∧ bucket.value = .ofInt 7) ∧
      (ofTable (.raw "k") (.ofReducer (.cumulativeSum "v")) tiedRows).Pairwise fun a b =>
        a.value.rank ≤ b.value.rank := by
  obtain ⟨counts, sums⟩ := holdsTotals_ofTable (.raw "k") tiedRows (by decide)
  obtain ⟨totals, grows⟩ := sums "v" (by decide +kernel)
  obtain ⟨bucket, last, value⟩ := totals.last
  have whole : sumOf tiedRows "v" tiedRows.rows = 7 := by decide +kernel
  have positive : ∀ x ∈ (numbersOf tiedRows "v" tiedRows.rows).map Binary64.toInt, 0 ≤ x := by
    decide +kernel
  refine ⟨(counts (by decide)).1, ⟨bucket, last, value.trans (congrArg _ whole)⟩, grows ?_⟩
  exact fun x member => positive _ (List.mem_map_of_mem member)

end LinkedViews.Buckets
