import LinkedViews.Preview.Buckets
import LinkedViews.Proofs.Preview.Key

/-!
The buckets of a table: there is one for each key that a row has, and none else.
-/

namespace LinkedViews.Buckets

variable {empty : Aggregate} {key other : Key} {value : Binary64} {buckets : List (Key × Aggregate)}
  {projection : Projection} {grouping : Grouping} {table : Table} {row : List Cell}

/-- Whether keys come in order, each of them once. -/
def Ascending (keys : List Key) : Prop := keys.Pairwise fun a b => a.compare b = .lt

theorem ne_of_compare_lt (less : key.compare other = .lt) : key ≠ other := by
  rintro rfl
  rw [Key.compare_self] at less
  contradiction

theorem Ascending.nodup {keys : List Key} (ascending : Ascending keys) : keys.Nodup :=
  ascending.imp ne_of_compare_lt

theorem mem_insert : other ∈ (insert empty key value buckets).map Prod.fst ↔
    other = key ∨ other ∈ buckets.map Prod.fst := by
  induction buckets with
  | nil => simp [insert]
  | cons first rest ih =>
      obtain ⟨own, state⟩ := first
      rw [insert]
      cases shown : key.compare own with
      | lt => simp
      | eq =>
          obtain rfl := Key.eq_of_compare key own shown
          simp
      | gt =>
          rw [List.map_cons, List.mem_cons, ih, List.map_cons, List.mem_cons]
          exact or_left_comm

theorem ascending_insert (ascending : Ascending (buckets.map Prod.fst)) :
    Ascending ((insert empty key value buckets).map Prod.fst) := by
  induction buckets with
  | nil => simp [insert, Ascending]
  | cons first rest ih =>
      obtain ⟨own, state⟩ := first
      obtain ⟨above, later⟩ := List.pairwise_cons.mp ascending
      rw [insert]
      cases shown : key.compare own with
      | lt =>
          refine List.pairwise_cons.mpr ⟨?_, ascending⟩
          intro other member
          obtain rfl | behind := List.mem_cons.mp member
          · exact shown
          · exact Std.TransCmp.lt_trans shown (above other behind)
      | eq => exact ascending
      | gt =>
          refine List.pairwise_cons.mpr ⟨?_, ih later⟩
          intro other member
          obtain rfl | behind := mem_insert.mp member
          · exact Std.OrientedCmp.lt_of_gt shown
          · exact above other behind

theorem collect_spec (entries : List (Key × Binary64)) :
    Ascending ((collect empty entries).map Prod.fst) ∧
      ∀ key, key ∈ (collect empty entries).map Prod.fst ↔ key ∈ entries.map Prod.fst := by
  have steps (buckets : List (Key × Aggregate)) (ascending : Ascending (buckets.map Prod.fst)) :
      let all := entries.foldl (fun buckets entry => insert empty entry.1 entry.2 buckets) buckets
      Ascending (all.map Prod.fst) ∧ ∀ key, key ∈ all.map Prod.fst ↔
        key ∈ entries.map Prod.fst ∨ key ∈ buckets.map Prod.fst := by
    induction entries generalizing buckets with
    | nil => simp [ascending]
    | cons entry rest ih =>
        obtain ⟨ordered, members⟩ := ih _ (ascending_insert ascending)
        refine ⟨ordered, fun key => ?_⟩
        rw [List.foldl_cons, members, mem_insert, List.map_cons, List.mem_cons]
        tauto
  obtain ⟨ordered, members⟩ := steps [] List.Pairwise.nil
  exact ⟨ordered, fun key => (members key).trans (by simp)⟩

theorem map_key_totalsFrom (total : Binary64) (buckets : List Bucket) :
    (totalsFrom total buckets).map Bucket.key = buckets.map Bucket.key := by
  induction buckets generalizing total with
  | nil => rfl
  | cons bucket rest ih => exact congrArg (bucket.key :: ·) (ih _)

theorem map_key_ofTable (projection : Projection) (grouping : Grouping) (table : Table) :
    (ofTable projection grouping table).map Bucket.key =
      (collect (.empty grouping) (table.rows.map (entry projection grouping table))).map
        Prod.fst := by
  cases grouping <;> simp [ofTable, runningTotals, map_key_totalsFrom, Function.comp_def]

theorem ascending_ofTable (projection : Projection) (grouping : Grouping) (table : Table) :
    Ascending ((ofTable projection grouping table).map Bucket.key) := by
  rw [map_key_ofTable]
  exact (collect_spec _).1

theorem mem_ofTable : key ∈ (ofTable projection grouping table).map Bucket.key ↔
    ∃ row ∈ table.rows, projection.key table row = key := by
  rw [map_key_ofTable, (collect_spec _).2]
  simp [entry]

theorem key_mem_ofTable (projection : Projection) (grouping : Grouping)
    (member : row ∈ table.rows) :
    projection.key table row ∈ (ofTable projection grouping table).map Bucket.key :=
  mem_ofTable.mpr ⟨row, member, rfl⟩

theorem Ascending.index_unique {keys : List Key} (ascending : Ascending keys) (key : Key)
    {i j : Nat} (one : keys[i]? = some key) (two : keys[j]? = some key) : i = j :=
  (List.getElem?_inj (List.getElem?_eq_some_iff.mp one).1 ascending.nodup).mp (one.trans two.symm)

/-- Every row is in one bucket. -/
theorem existsUnique_bucket (projection : Projection) (grouping : Grouping)
    (member : row ∈ table.rows) :
    ∃! index : Nat, ∃ bucket, (ofTable projection grouping table)[index]? = some bucket ∧
      bucket.key.compare (projection.key table row) = .eq := by
  obtain ⟨bucket, inside, same⟩ :=
    List.mem_map.mp (key_mem_ofTable projection grouping member)
  obtain ⟨index, place⟩ := List.mem_iff_getElem?.mp inside
  refine ⟨index, ⟨bucket, place, same ▸ Std.ReflCmp.compare_self⟩, ?_⟩
  rintro other ⟨second, elsewhere, equal⟩
  apply (ascending_ofTable projection grouping table).index_unique (projection.key table row)
  · rw [List.getElem?_map, elsewhere, Option.map_some, Key.eq_of_compare _ _ equal]
  · rw [List.getElem?_map, place, Option.map_some, same]

/-- Two rows are in the same bucket if and only if their keys compare as equal. -/
theorem exists_bucket_iff (projection : Projection) (grouping : Grouping) {second : List Cell}
    (member : row ∈ table.rows) :
    (∃ bucket ∈ ofTable projection grouping table,
        bucket.key.compare (projection.key table row) = .eq ∧
          bucket.key.compare (projection.key table second) = .eq) ↔
      (projection.key table row).compare (projection.key table second) = .eq := by
  constructor
  · rintro ⟨bucket, _, one, two⟩
    rw [← Key.eq_of_compare _ _ one]
    exact two
  · intro equal
    obtain ⟨bucket, inside, same⟩ :=
      List.mem_map.mp (key_mem_ofTable projection grouping member)
    exact ⟨bucket, inside, same ▸ Std.ReflCmp.compare_self, same ▸ equal⟩

end LinkedViews.Buckets
