import Mathlib

/-!
Orderings of lists by their first items that differ.
-/

namespace LinkedViews.Lexicographic

variable {front back : List Nat} {n m : Nat}

theorem compare_eq_compare_iff {α β : Type} [LinearOrder α] [LinearOrder β] (a b : α) (x y : β) :
    compare a b = compare x y ↔ (a < b ↔ x < y) ∧ (b < a ↔ y < x) := by
  rw [← compare_lt_iff_lt, ← compare_lt_iff_lt (a := x), ← compare_gt_iff_gt (a := a),
    ← compare_gt_iff_gt (a := x)]
  cases compare a b <;> cases compare x y <;> decide

theorem then_of_ne {first : Ordering} (decided : first ≠ .eq) (second : Ordering) :
    first.then second = first := by
  cases first with
  | lt => rfl
  | gt => rfl
  | eq => exact absurd rfl decided

theorem then_eq_of_ne (other : n ≠ m) (result : Ordering) :
    (compare n m).then result = compare n m :=
  then_of_ne (fun same => other (compare_eq_iff_eq.mp same)) result

theorem compare_append_left (common rest more : List Nat) :
    compare (common ++ rest) (common ++ more) = compare rest more := by
  induction common with
  | nil => rfl
  | cons n tail ih =>
      rw [List.cons_append, List.cons_append, List.compare_cons_cons, ih]
      simp

theorem compare_append (even : front.length = back.length) (rest more : List Nat) :
    compare (front ++ rest) (back ++ more) = (compare front back).then (compare rest more) := by
  induction front generalizing back with
  | nil =>
      obtain rfl : back = [] := List.length_eq_zero_iff.mp even.symm
      rfl
  | cons n front ih =>
      cases back with
      | nil => contradiction
      | cons m back =>
          rw [List.cons_append, List.cons_append, List.compare_cons_cons, List.compare_cons_cons,
            ih (Nat.succ.inj even), Ordering.then_assoc]

/-- Behind lists of items above a separator the separator makes the shorter one come first, as it
does by itself. -/
theorem compare_separated {separator : Nat} (above : ∀ n ∈ front, separator < n)
    (behind : ∀ n ∈ back, separator < n) (rest more : List Nat) :
    compare (front ++ separator :: rest) (back ++ separator :: more) =
      (compare front back).then (compare rest more) := by
  induction front generalizing back with
  | nil =>
      cases back with
      | nil => simp
      | cons m back =>
          have less := behind m List.mem_cons_self
          rw [List.nil_append, List.cons_append, List.compare_cons_cons,
            then_eq_of_ne (Nat.ne_of_lt less), compare_lt_iff_lt.mpr less, List.compare_nil_cons]
          rfl
  | cons n front ih =>
      have greater := above n List.mem_cons_self
      cases back with
      | nil =>
          rw [List.nil_append, List.cons_append, List.compare_cons_cons,
            then_eq_of_ne (Nat.ne_of_gt greater), compare_gt_iff_gt.mpr greater,
            List.compare_cons_nil]
          rfl
      | cons m back =>
          rw [List.cons_append, List.cons_append, List.compare_cons_cons, List.compare_cons_cons,
            ih (fun k member => above k (List.mem_cons_of_mem n member))
              (fun k member => behind k (List.mem_cons_of_mem m member)), Ordering.then_assoc]

end LinkedViews.Lexicographic
