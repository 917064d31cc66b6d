import LinkedViews.Preview.Buckets
import LinkedViews.Proofs.Number.Sum

/-!
Means that values are taken into and out of. Whatever the order of the steps, the number of values
is the balance of both; and while the numbers are whole and small enough for sums that are not
rounded, so is the sum. So a mean depends on what remains in it, and not on how it came about.
-/

namespace LinkedViews.RunningMean

open Binary64

/-- A value that is taken into a mean or out of it. -/
inductive Step where
  | add (value : Binary64)
  | remove (value : Binary64)
deriving DecidableEq, Repr

namespace Step

def value : Step → Binary64
  | add value => value
  | remove value => value

def added? : Step → Option Binary64
  | add value => some value
  | remove _ => none

def removed? : Step → Option Binary64
  | add _ => none
  | remove value => some value

end Step

variable {steps : List Step}

def step (state : RunningMean) : Step → RunningMean
  | .add value => state.add value
  | .remove value => state.remove value

/-- The mean after some steps, from the mean of nothing on. -/
def run (steps : List Step) : RunningMean := steps.foldl step empty

def added (steps : List Step) : List Binary64 := steps.filterMap Step.added?

def removed (steps : List Step) : List Binary64 := steps.filterMap Step.removed?

/-- By how many the values that are added outnumber those that are removed. -/
def remaining (steps : List Step) : Int := (added steps).length - (removed steps).length

/-- By how much the whole numbers that are added exceed those that are removed. -/
def balance (steps : List Step) : Int :=
  ((added steps).map toInt).sum - ((removed steps).map toInt).sum

/-! ## One step more -/

@[simp] theorem run_concat (steps : List Step) (last : Step) :
    run (steps ++ [last]) = (run steps).step last := by
  rw [run, List.foldl_append]
  rfl

theorem lists_add (steps : List Step) (value : Binary64) :
    added (steps ++ [.add value]) = added steps ++ [value] ∧
      removed (steps ++ [.add value]) = removed steps := by
  rw [added, removed, List.filterMap_append, List.filterMap_append]
  exact ⟨rfl, List.append_nil _⟩

theorem lists_remove (steps : List Step) (value : Binary64) :
    added (steps ++ [.remove value]) = added steps ∧
      removed (steps ++ [.remove value]) = removed steps ++ [value] := by
  rw [added, removed, List.filterMap_append, List.filterMap_append]
  exact ⟨List.append_nil _, rfl⟩

@[simp] theorem remaining_add (steps : List Step) (value : Binary64) :
    remaining (steps ++ [.add value]) = remaining steps + 1 := by
  simp only [remaining, lists_add, List.length_append, List.length_singleton]
  omega

@[simp] theorem remaining_remove (steps : List Step) (value : Binary64) :
    remaining (steps ++ [.remove value]) = remaining steps - 1 := by
  simp only [remaining, lists_remove, List.length_append, List.length_singleton]
  omega

@[simp] theorem balance_add (steps : List Step) (value : Binary64) :
    balance (steps ++ [.add value]) = balance steps + value.toInt := by
  simp only [balance, lists_add, List.map_append, List.sum_append, List.map_singleton,
    List.sum_singleton]
  omega

@[simp] theorem balance_remove (steps : List Step) (value : Binary64) :
    balance (steps ++ [.remove value]) = balance steps - value.toInt := by
  simp only [balance, lists_remove, List.map_append, List.sum_append, List.map_singleton,
    List.sum_singleton]
  omega

theorem spread_concat (values : List Binary64) (last : Binary64) :
    spread (values ++ [last]) = spread values + last.toInt.natAbs := by
  simp [spread]

theorem natAbs_balance_le (steps : List Step) :
    (balance steps).natAbs ≤ spread (steps.map Step.value) := by
  induction steps using List.reverseRecOn with
  | nil => exact Nat.le_refl 0
  | append_singleton steps last ih =>
      rw [List.map_append, List.map_singleton, spread_concat]
      cases last with
      | add value =>
          rw [balance_add, Step.value]
          omega
      | remove value =>
          rw [balance_remove, Step.value]
          omega

/-! ## All steps -/

theorem count_run (steps : List Step) : (run steps).count = remaining steps := by
  induction steps using List.reverseRecOn with
  | nil => rfl
  | append_singleton steps last ih =>
      rw [run_concat]
      cases last with
      | add value => rw [remaining_add, ← ih]; rfl
      | remove value => rw [remaining_remove, ← ih]; rfl

/-- Count and sum are all there is to a state. -/
theorem run_eq_ofSum (steps : List Step) :
    run steps = ofSum (run steps).count (run steps).sum := by
  induction steps using List.reverseRecOn with
  | nil => rfl
  | append_singleton steps last _ =>
      rw [run_concat]
      cases last <;> rfl

/-- No step of whole numbers rounds the sum. -/
theorem sum_run (exact : Exact (steps.map Step.value)) :
    (run steps).sum = ofInt (balance steps) := by
  induction steps using List.reverseRecOn with
  | nil => exact ofInt_zero.symm
  | append_singleton steps last ih =>
      rw [List.map_append] at exact
      have before := exact.sublist (List.sublist_append_left ..)
      have whole := exact.whole last.value (by simp)
      have small : (balance steps).natAbs ≤ 2 ^ 53 :=
        Nat.le_trans (natAbs_balance_le steps) before.small
      rw [run_concat]
      cases last with
      | add value =>
          change (run steps).sum.add value = _
          change value.isWhole = true at whole
          rw [ih before, balance_add, add_ofInt small whole]
      | remove value =>
          change (run steps).sum.sub value = _
          change value.isWhole = true at whole
          rw [ih before, balance_remove, sub_ofInt small whole]

theorem run_eq_run {others : List Step} (exact : Exact (steps.map Step.value))
    (exactOthers : Exact (others.map Step.value)) (count : remaining others = remaining steps)
    (sum : balance others = balance steps) : run others = run steps := by
  rw [run_eq_ofSum others, run_eq_ofSum steps, count_run, count_run, sum_run exact,
    sum_run exactOthers, count, sum]

theorem run_eq_empty (exact : Exact (steps.map Step.value))
    (same : (removed steps).Perm (added steps)) : run steps = empty := by
  have count : remaining steps = 0 := by
    rw [remaining, same.length_eq, Int.sub_self]
  have sum : balance steps = 0 := by
    rw [balance, (same.map toInt).sum_eq, Int.sub_self]
  have none : Exact (([] : List Step).map Step.value) := exact_iff.mpr (by decide)
  exact run_eq_run none exact count sum

/-- After any steps a mean counts the values that were added without those that were removed, and
its average is the quotient of sum and count, or zero for no values. While whole numbers are not
rounded, the sum is that of the values added without that of the values removed, so that steps in
any order with the same balance give the same mean, and the mean of nothing if all values that were
added are removed. -/
theorem run_spec (steps : List Step) :
    (run steps).count = (added steps).length - (removed steps).length ∧
      (run steps).average = (if (run steps).count = 0 then .zero
        else (run steps).sum.div (.ofInt (run steps).count)) ∧
      (Exact (steps.map Step.value) →
        (run steps).sum = .ofInt (balance steps) ∧ (run steps).sum.isWhole = true ∧
          (run steps).sum.toInt = balance steps ∧
        (∀ others : List Step, Exact (others.map Step.value) → remaining others = remaining steps →
          balance others = balance steps → run others = run steps) ∧
        ((removed steps).Perm (added steps) → run steps = empty)) := by
  refine ⟨count_run steps, ?_, fun exact => ?_⟩
  · conv_lhs => rw [run_eq_ofSum steps]
    rfl
  · have small : (balance steps).natAbs ≤ 2 ^ 53 :=
      Nat.le_trans (natAbs_balance_le steps) exact.small
    refine ⟨sum_run exact, ?_, ?_, fun others => run_eq_run exact, run_eq_empty exact⟩
    · rw [sum_run exact, isWhole_ofInt small]
    · rw [sum_run exact, toInt_ofInt small]

/-- The first value is removed before it is added, and a zero of either sign changes nothing. -/
def crossed : List Step :=
  [.remove (ofInt 3), .add (ofInt 5), .remove ⟨9223372036854775808⟩, .remove (ofInt 5),
    .add ⟨9223372036854775808⟩, .add (ofInt 3)]

theorem run_spec_crossed :
    Exact (crossed.map Step.value) ∧ (removed crossed).Perm (added crossed) ∧
      run crossed = empty := by
  have exact : Exact (crossed.map Step.value) := by decide +kernel
  have same : (removed crossed).Perm (added crossed) := by decide +kernel
  obtain ⟨_, _, whole⟩ := run_spec crossed
  obtain ⟨_, _, _, _, undone⟩ := whole exact
  exact ⟨exact, same, undone same⟩

end LinkedViews.RunningMean
