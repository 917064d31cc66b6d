import LinkedViews.Proofs.Preview.Partition

/-!
Rows in another order. The keys of the buckets are the same, and each bucket gets the same values in
another order; so it shows the same unless a sum of them is rounded.
-/

namespace LinkedViews

namespace Grouping

variable {grouping : Grouping} {values shuffled : List Binary64}

/-- Numbers are counted alike in every order, and summed up alike where they are whole. -/
theorem summary_perm (same : shuffled.Perm values)
    (exact : grouping.field? ≠ none → Binary64.Exact values) :
    grouping.summary shuffled = grouping.summary values := by
  induction grouping with
  | keys => rw [summary, summary, same.length_eq]
  | count => rw [summary, summary, same.length_eq]
  | sum field => exact ((exact (by simp [field?])).total_perm same.symm).symm
  | mean field =>
      have total := (exact (by simp [field?])).total_perm same.symm
      have blank : shuffled = [] ↔ values = [] := by
        rw [← List.length_eq_zero_iff, same.length_eq, List.length_eq_zero_iff]
      rw [summary, summary, total, same.length_eq]
      simp only [blank]
  | cumulative inner ih => exact ih exact

end Grouping

namespace Buckets

variable {projection : Projection} {grouping : Grouping} {table other : Table}
  {columns : List Column} {rows shuffled : List (List Cell)}
  {entries others : List (Key × Binary64)}

theorem Ascending.eq_of_mem_iff {keys others : List Key} (one : Ascending keys)
    (two : Ascending others) (same : ∀ key, key ∈ keys ↔ key ∈ others) : keys = others := by
  refine List.Perm.eq_of_pairwise (fun a b _ _ less more => ?_) one two
    ((List.perm_ext_iff_of_nodup one.nodup two.nodup).mpr same)
  exact absurd more (Std.OrientedCmp.not_lt_of_lt less)

/-- Entries that have the same keys and give each the same summary are shown alike. -/
theorem shown_collect_congr (keys : ∀ key, key ∈ others.map Prod.fst ↔ key ∈ entries.map Prod.fst)
    (values : ∀ key, grouping.summary (valuesAt key others) =
      grouping.summary (valuesAt key entries)) :
    (collect (.empty grouping) others).map (fun (key, state) => Bucket.mk key state.shown) =
      (collect (.empty grouping) entries).map fun (key, state) => Bucket.mk key state.shown := by
  obtain ⟨ascending, members⟩ := @collect_spec (.empty grouping) entries
  obtain ⟨ascendingOthers, membersOthers⟩ := @collect_spec (.empty grouping) others
  have same := ascendingOthers.eq_of_mem_iff ascending fun key =>
    (membersOthers key).trans ((keys key).trans (members key).symm)
  rw [shown_collect, shown_collect, same]
  exact List.map_congr_left fun key _ => congrArg (Bucket.mk key) (values key)

theorem ofTable_congr
    (same : (collect (.empty grouping) (table.rows.map (entry projection grouping table))).map
        (fun (key, state) => Bucket.mk key state.shown) =
      (collect (.empty grouping) (other.rows.map (entry projection grouping other))).map
        fun (key, state) => Bucket.mk key state.shown) :
    ofTable projection grouping table = ofTable projection grouping other := by
  unfold ofTable
  simp only [same]

/-- The entry of a row depends on the columns of its table only. -/
theorem entry_rows (row : List Cell) :
    entry projection grouping ⟨columns, shuffled⟩ row =
      entry projection grouping ⟨columns, rows⟩ row := by
  cases projection <;> rfl

theorem exact_valuesAt {field : String} (reduced : grouping.field? = some field)
    (exact : Binary64.Exact (numbersOf table field table.rows)) (key : Key) :
    Binary64.Exact (valuesAt key (table.rows.map (entry projection grouping table))) := by
  have numbers : (table.rows.map (entry projection grouping table)).map Prod.snd =
      numbersOf table field table.rows := by
    rw [List.map_map]
    exact List.map_congr_left fun row _ => by simp [entry, reduced]
  rw [← numbers] at exact
  exact exact.sublist (List.filter_sublist.map _)

/-- The buckets of a table do not depend on the order of its rows, as long as the numbers that are
summed up are whole and small enough for sums that are not rounded. Where no field is reduced, as
with counts and the totals of counts, there are no such numbers. -/
theorem ofTable_perm (projection : Projection) (grouping : Grouping) (same : shuffled.Perm rows)
    (exact : ∀ field, grouping.field? = some field →
      Binary64.Exact (numbersOf ⟨columns, rows⟩ field rows)) :
    ofTable projection grouping ⟨columns, shuffled⟩ =
      ofTable projection grouping ⟨columns, rows⟩ := by
  have entries : (shuffled.map (entry projection grouping ⟨columns, shuffled⟩)).Perm
      (rows.map (entry projection grouping ⟨columns, rows⟩)) := by
    rw [List.map_congr_left fun row _ => entry_rows row]
    exact same.map _
  refine ofTable_congr (shown_collect_congr (fun key => (entries.map _).mem_iff) fun key => ?_)
  refine Grouping.summary_perm ((entries.filter _).map _) fun reduced => ?_
  obtain ⟨field, own⟩ := Option.ne_none_iff_exists'.mp reduced
  exact exact_valuesAt own (exact field own) key

/-- Null and negative zero add nothing, wherever they stand. -/
theorem ofTable_perm_zeros :
    ofTable (.numeric "k") (.cumulative (.sum "v"))
        ⟨[⟨"k", .integer⟩, ⟨"v", .real⟩],
          [[.integer 2, .real ⟨9223372036854775808⟩], [.integer 1, .integer 3],
            [.integer 2, .integer (-5)], [.integer 1, .null]]⟩ =
      ofTable (.numeric "k") (.cumulative (.sum "v"))
        ⟨[⟨"k", .integer⟩, ⟨"v", .real⟩],
          [[.integer 1, .null], [.integer 2, .integer (-5)],
            [.integer 2, .real ⟨9223372036854775808⟩], [.integer 1, .integer 3]]⟩ := by
  refine ofTable_perm (.numeric "k") (.cumulative (.sum "v")) (by decide) fun field own => ?_
  obtain rfl : "v" = field := Option.some.inj own
  decide +kernel

end Buckets

end LinkedViews
