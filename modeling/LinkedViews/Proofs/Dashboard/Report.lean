import LinkedViews.Dashboard.Report
import LinkedViews.Proofs.Preview.Buckets
import LinkedViews.Proofs.Preview.Display

/-!
The buckets in the report of a dashboard. Each of them has one line, which tells what its key is,
however the key is filled up and whatever value stands behind it.
-/

namespace LinkedViews.Report

variable {one other : Bucket} {buckets : List Bucket} {maxBuckets i : Nat}

theorem toList_bucketLine (bucket : Bucket) :
    ∃ rest, (bucketLine bucket).toList = ' ' :: ' ' :: (bucket.key.display.toList ++ rest) ∧
      Key.Stops rest := by
  refine ⟨List.replicate (30 - bucket.key.display.length) ' ' ++
    ' ' :: (Numeral.plain bucket.value).toList, by simp [bucketLine, Text.padRight], ?_⟩
  cases 30 - bucket.key.display.length with
  | zero => exact Key.stops_cons rfl _
  | succ missing => exact Key.stops_cons rfl _

theorem key_eq_of_bucketLine_eq (proper : one.key.holdsNaN = false)
    (same : bucketLine one = bucketLine other) : one.key = other.key := by
  obtain ⟨rest, shape, stops⟩ := toList_bucketLine one
  obtain ⟨more, shape', stopped⟩ := toList_bucketLine other
  have chars := congrArg String.toList same
  rw [shape, shape'] at chars
  exact (Key.display_append_inj one.key other.key proper rest more stops stopped
    (List.cons.inj (List.cons.inj chars).2).2).1

theorem feed_notMem_bucketLine (bucket : Bucket) : '\n' ∉ (bucketLine bucket).toList := by
  have feed : Text.isPrintable '\n' = false := by decide
  have shown : '\n' ∉ bucket.key.display.toList := fun member => by
    rw [Key.isPrintable_of_mem_display bucket.key '\n' member] at feed
    contradiction
  have number : '\n' ∉ (Numeral.plain bucket.value).toList := fun member =>
    absurd (Numeral.isPlainPart_of_mem_plain member) (by decide)
  simp [bucketLine, Text.padRight, shown, number]

/-- Among the lines of the buckets, those that show a key are the lines of the first buckets; the
heading and the line that counts the others show none. -/
theorem exists_of_getElem?_bucketLines
    (found : (bucketLines maxBuckets buckets)[i]? = some (bucketLine one)) :
    ∃ position bucket, i = position + 1 ∧ buckets[position]? = some bucket ∧
      bucketLine bucket = bucketLine one := by
  obtain ⟨rest, shape, _⟩ := toList_bucketLine one
  obtain ⟨c, key, begins, first⟩ := Key.head_display one.key
  rw [begins] at shape
  cases i with
  | zero =>
      have heading := congrArg String.toList (Option.some.inj found)
      rw [shape, String.toList_append] at heading
      exact absurd (List.cons.inj heading).1 (by decide)
  | succ position =>
      have behind : ((buckets.take maxBuckets).map bucketLine ++
          if maxBuckets < buckets.length then
            ["  ... " ++ Numeral.ofNat (buckets.length - maxBuckets) ++ " more"]
          else [])[position]? = some (bucketLine one) := found
      rw [List.getElem?_append] at behind
      split at behind
      · rw [List.getElem?_map, Option.map_eq_some_iff] at behind
        obtain ⟨bucket, taken, line⟩ := behind
        rw [List.getElem?_take, Option.ite_none_right_eq_some] at taken
        exact ⟨position, bucket, rfl, taken.2, line⟩
      · split at behind
        · have last := List.mem_of_getElem? behind
          have count := congrArg String.toList (List.mem_singleton.mp last)
          rw [shape, String.toList_append, String.toList_append] at count
          rw [(List.cons.inj (List.cons.inj (List.cons.inj count).2).2).1] at first
          contradiction
        · contradiction

/-- Lines that show the same key without NaN are one line, whatever values they show. -/
theorem place_unique {key : Key} {j : Nat} {value another : Binary64}
    (apart : (buckets.map Bucket.key).Nodup) (proper : key.holdsNaN = false)
    (found : (bucketLines maxBuckets buckets)[i]? = some (bucketLine ⟨key, value⟩))
    (again : (bucketLines maxBuckets buckets)[j]? = some (bucketLine ⟨key, another⟩)) : i = j := by
  have shows {i : Nat} {value : Binary64}
      (found : (bucketLines maxBuckets buckets)[i]? = some (bucketLine ⟨key, value⟩)) :
      ∃ position, i = position + 1 ∧ (buckets.map Bucket.key)[position]? = some key := by
    obtain ⟨position, bucket, place, own, line⟩ := exists_of_getElem?_bucketLines found
    refine ⟨position, place, ?_⟩
    rw [List.getElem?_map, own, Option.map_some, ← key_eq_of_bucketLine_eq proper line.symm]
  obtain ⟨first, rfl, own⟩ := shows found
  obtain ⟨second, rfl, other⟩ := shows again
  have inside := (List.getElem?_eq_some_iff.mp own).1
  rw [(List.getElem?_inj inside apart).mp (own.trans other.symm)]

/-- A key without NaN shares its text with no other key. In the report of a dashboard, what shows it
is one line, and no two of the lines under a chart show it. -/
theorem bucketLines_apart {a b : Key} (proper : a.holdsNaN = false)
    (same : a.display = b.display) :
    a.compare b = .eq ∧
      (∀ value, '\n' ∉ (bucketLine ⟨a, value⟩).toList) ∧
      ∀ (dashboard : Dashboard) (chart : Chart) (maxBuckets i j : Nat) (value another : Binary64),
        (bucketLines maxBuckets (dashboard.preview chart).buckets)[i]? =
            some (bucketLine ⟨a, value⟩) →
          (bucketLines maxBuckets (dashboard.preview chart).buckets)[j]? =
            some (bucketLine ⟨b, another⟩) → i = j := by
  obtain rfl := Key.eq_of_display_eq proper same
  refine ⟨Key.compare_self a, fun value => feed_notMem_bucketLine ⟨a, value⟩, ?_⟩
  intro dashboard chart maxBuckets i j value another found again
  exact place_unique (Buckets.ascending_ofTable _ _ _).nodup proper found again

/-- A dashboard whose colors look like the ends of tuples. -/
def bracketed : Dashboard :=
  ⟨⟨[⟨"x", .integer⟩, ⟨"y", .integer⟩, ⟨"c", .text⟩],
    [[.integer 1, .integer 2, .text "], [\", "], [.integer 1, .integer 2, .text "], "]]⟩,
    .standard, [], []⟩

def bracketedPlot : Chart := ⟨.scatterPlot, .scatter "x" "y" "c", .count, .standard⟩

def bracketedKey : Key := .tuple [.number .one, .number (.ofInt 2), .text "], [\", "]

theorem bucketLines_apart_bracketed :
    bracketedKey.holdsNaN = false ∧ bracketedKey.compare bracketedKey = .eq ∧
      (bucketLines 20 (bracketed.preview bracketedPlot).buckets)[2]? =
        some (bucketLine ⟨bracketedKey, .one⟩) ∧
      ∀ j value, (bucketLines 20 (bracketed.preview bracketedPlot).buckets)[j]? =
        some (bucketLine ⟨bracketedKey, value⟩) → 2 = j := by
  have proper : bracketedKey.holdsNaN = false := by decide +kernel
  have found : (bucketLines 20 (bracketed.preview bracketedPlot).buckets)[2]? =
      some (bucketLine ⟨bracketedKey, .one⟩) := by decide +kernel
  obtain ⟨same, _, unique⟩ := bucketLines_apart proper rfl
  exact ⟨proper, same, found, fun j value => unique _ _ 20 2 j .one value found⟩

end LinkedViews.Report
