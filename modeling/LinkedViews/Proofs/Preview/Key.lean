import LinkedViews.Preview.Key
import LinkedViews.Proofs.Number.Written

/-!
The order of keys. It is a linear one: keys that compare as equal are the same, down to the bits of
their numbers.
-/

namespace LinkedViews.Key

variable {a b : Key}

theorem compare_of_ne (other : a.kindRank ≠ b.kindRank) :
    a.compare b = Ord.compare a.kindRank b.kindRank := by
  cases a <;> cases b <;> first | rfl | exact absurd rfl other

theorem kindRank_le (le : (a.compare b).isLE = true) : a.kindRank ≤ b.kindRank := by
  by_contra greater
  rw [compare_of_ne (by omega), compare_gt_iff_gt.mpr (Nat.lt_of_not_le greater)] at le
  contradiction

theorem exists_boolean (kind : a.kindRank = 0) : ∃ x, a = boolean x := by
  cases a <;> first | exact ⟨_, rfl⟩ | simp [kindRank] at kind

theorem exists_number (kind : a.kindRank = 1) : ∃ x, a = number x := by
  cases a <;> first | exact ⟨_, rfl⟩ | simp [kindRank] at kind

theorem exists_text (kind : a.kindRank = 2) : ∃ x, a = text x := by
  cases a <;> first | exact ⟨_, rfl⟩ | simp [kindRank] at kind

theorem exists_tuple (kind : a.kindRank = 3) : ∃ x, a = tuple x := by
  cases a <;> first | exact ⟨_, rfl⟩ | simp [kindRank] at kind

theorem rank_injective {x y : Binary64} (same : x.rank = y.rank) : x = y := by
  have split : x.isNegative = y.isNegative ∧ x.magnitude = y.magnitude := by
    unfold Binary64.rank at same
    cases one : x.isNegative <;> cases other : y.isNegative <;> rw [one, other] at same <;>
      simp at same ⊢ <;> omega
  rw [← Binary64.ofParts_self x, ← Binary64.ofParts_self y, split.1, split.2]

theorem codePoints_injective {s t : String} (same : codePoints s = codePoints t) : s = t :=
  String.toList_inj.mp (List.map_injective_iff.mpr (fun _ _ => Char.toNat_inj.mp) same)

mutual

theorem eq_of_compare : (a b : Key) → a.compare b = .eq → a = b
  | boolean a, boolean b, same => by
      rw [compare] at same
      rw [Std.LawfulEqOrd.eq_of_compare same]
  | number a, number b, same => by
      rw [compare] at same
      rw [rank_injective (Std.LawfulEqOrd.eq_of_compare same)]
  | text a, text b, same => by
      rw [compare] at same
      rw [codePoints_injective (Std.LawfulEqOrd.eq_of_compare same)]
  | tuple as, tuple bs, same => by
      rw [compare] at same
      rw [eq_of_compareItems as bs same]
  | boolean _, number _, same | boolean _, text _, same | boolean _, tuple _, same
  | number _, boolean _, same | number _, text _, same | number _, tuple _, same
  | text _, boolean _, same | text _, number _, same | text _, tuple _, same
  | tuple _, boolean _, same | tuple _, number _, same | tuple _, text _, same => by
      contradiction

theorem eq_of_compareItems : (as bs : List Key) → compareItems as bs = .eq → as = bs
  | [], [], _ => rfl
  | [], _ :: _, same => by contradiction
  | _ :: _, [], same => by contradiction
  | a :: as, b :: bs, same => by
      rw [compareItems, Ordering.then_eq_eq] at same
      rw [eq_of_compare a b same.1, eq_of_compareItems as bs same.2]

end

mutual

theorem compare_swap : (a b : Key) → a.compare b = (b.compare a).swap
  | boolean a, boolean b => by
      rw [compare, compare]
      exact Std.OrientedOrd.eq_swap
  | number a, number b => by
      rw [compare, compare]
      exact Std.OrientedOrd.eq_swap
  | text a, text b => by
      rw [compare, compare]
      exact Std.OrientedOrd.eq_swap
  | tuple as, tuple bs => by
      rw [compare, compare]
      exact compareItems_swap as bs
  | boolean _, number _ | boolean _, text _ | boolean _, tuple _
  | number _, boolean _ | number _, text _ | number _, tuple _
  | text _, boolean _ | text _, number _ | text _, tuple _
  | tuple _, boolean _ | tuple _, number _ | tuple _, text _ => rfl

theorem compareItems_swap : (as bs : List Key) → compareItems as bs = (compareItems bs as).swap
  | [], [] => rfl
  | [], _ :: _ => rfl
  | _ :: _, [] => rfl
  | a :: as, b :: bs => by
      rw [compareItems, compareItems, Ordering.swap_then, ← compare_swap a b,
        ← compareItems_swap as bs]

end

instance : Std.OrientedCmp compare where
  eq_swap := compare_swap _ _

instance : Std.LawfulEqCmp compare where
  compare_self := Std.ReflCmp.compare_self
  eq_of_compare := eq_of_compare _ _

@[simp] theorem compare_self (key : Key) : key.compare key = .eq := Std.ReflCmp.compare_self

instance : DecidableEq Key := fun a b =>
  decidable_of_iff (a.compare b = .eq) Std.LawfulEqCmp.compare_eq_iff_eq

/-- Lists are ordered transitively where the items of the first one are. -/
theorem isLE_trans_items (as bs cs : List Key)
    (each : ∀ a ∈ as, ∀ b c : Key, (a.compare b).isLE = true → (b.compare c).isLE = true →
      (a.compare c).isLE = true)
    (first : (compareItems as bs).isLE = true) (second : (compareItems bs cs).isLE = true) :
    (compareItems as cs).isLE = true := by
  induction as generalizing bs cs with
  | nil => cases cs <;> rfl
  | cons a as ih =>
      cases bs with
      | nil => contradiction
      | cons b bs =>
          cases cs with
          | nil => contradiction
          | cons c cs =>
              rw [compareItems, Ordering.isLE_then_iff_or] at first second ⊢
              obtain less | ⟨same, rest⟩ := first
              · obtain more | ⟨equal, _⟩ := second
                · have le := each a List.mem_cons_self b c (by rw [less]; rfl) (by rw [more]; rfl)
                  cases shown : a.compare c with
                  | lt => exact .inl rfl
                  | gt =>
                      rw [shown] at le
                      contradiction
                  | eq =>
                      rw [← eq_of_compare a c shown, compare_swap, less] at more
                      contradiction
                · rw [eq_of_compare b c equal] at less
                  exact .inl less
              · rw [eq_of_compare a b same]
                exact second.imp_right fun behind => ⟨behind.1, ih bs cs
                  (fun other member => each other (List.mem_cons_of_mem a member)) rest behind.2⟩

theorem isLE_trans (a b c : Key) (first : (a.compare b).isLE = true)
    (second : (b.compare c).isLE = true) : (a.compare c).isLE = true := by
  have low := kindRank_le first
  have high := kindRank_le second
  by_cases same : a.kindRank = c.kindRank
  · have middle : b.kindRank = c.kindRank := by omega
    cases c with
    | boolean z =>
        obtain ⟨x, rfl⟩ := exists_boolean same
        obtain ⟨y, rfl⟩ := exists_boolean middle
        rw [compare] at first second ⊢
        exact Std.TransOrd.isLE_trans first second
    | number z =>
        obtain ⟨x, rfl⟩ := exists_number same
        obtain ⟨y, rfl⟩ := exists_number middle
        rw [compare] at first second ⊢
        exact Std.TransOrd.isLE_trans first second
    | text z =>
        obtain ⟨x, rfl⟩ := exists_text same
        obtain ⟨y, rfl⟩ := exists_text middle
        rw [compare] at first second ⊢
        exact Std.TransOrd.isLE_trans first second
    | tuple cs =>
        obtain ⟨as, rfl⟩ := exists_tuple same
        obtain ⟨bs, rfl⟩ := exists_tuple middle
        rw [compare] at first second ⊢
        exact isLE_trans_items as bs cs (fun a member b c => isLE_trans a b c) first second
  · rw [compare_of_ne same, compare_lt_iff_lt.mpr (by omega)]
    rfl
termination_by sizeOf a
decreasing_by
  subst_vars
  simp only [tuple.sizeOf_spec]
  have smaller := List.sizeOf_lt_of_mem member
  omega

instance : Std.TransCmp compare where
  isLE_trans := isLE_trans _ _ _

/-- The order of keys is total. Of any two keys one is less than the other or they are the same, and
comparing them the other way round says so too. Numbers are the same if all their bits are. Less and
equal are transitive, also one behind the other. -/
theorem compare_total (a b c : Key) :
    (a.compare b = .lt ∧ a ≠ b ∧ b.compare a = .gt ∨
        a.compare b = .eq ∧ a = b ∧ b.compare a = .eq ∨
        a.compare b = .gt ∧ a ≠ b ∧ b.compare a = .lt) ∧
      b.compare a = (a.compare b).swap ∧
      (a.compare b = .eq ↔ a = b) ∧
      (∀ x y, (number x).compare (number y) = .eq ↔ x.bits = y.bits) ∧
      (a.compare b = .lt → b.compare c = .lt → a.compare c = .lt) ∧
      (a.compare b = .lt → b.compare c = .eq → a.compare c = .lt) ∧
      (a.compare b = .eq → b.compare c = .lt → a.compare c = .lt) ∧
      (a.compare b = .eq → b.compare c = .eq → a.compare c = .eq) := by
  have same : a.compare b = .eq ↔ a = b := Std.LawfulEqCmp.compare_eq_iff_eq
  have back : b.compare a = (a.compare b).swap := compare_swap b a
  refine ⟨?_, back, same, fun x y => ?_, Std.TransCmp.lt_trans, ?_, ?_, Std.TransCmp.eq_trans⟩
  · rw [back]
    cases shown : a.compare b with
    | lt => exact .inl ⟨rfl, fun equal => by simp [same.mpr equal] at shown, rfl⟩
    | eq => exact .inr (.inl ⟨rfl, same.mp shown, rfl⟩)
    | gt => exact .inr (.inr ⟨rfl, fun equal => by simp [same.mpr equal] at shown, rfl⟩)
  · have numbers : (number x).compare (number y) = .eq ↔ number x = number y :=
      Std.LawfulEqCmp.compare_eq_iff_eq
    rw [numbers, Key.number.injEq, Binary64.mk.injEq]
  · intro less equal
    rwa [← eq_of_compare b c equal]
  · intro equal less
    rwa [eq_of_compare a b equal]

/-- Negative zero comes before zero, and a tuple before those that continue it. -/
theorem compare_total_tuple :
    (tuple [number (.ofParts true 0)]).compare (tuple [number .zero, text ""]) = .lt := by
  obtain ⟨_, _, _, _, trans, _⟩ := compare_total (tuple [number (.ofParts true 0)])
    (tuple [number .zero]) (tuple [number .zero, text ""])
  exact trans (by decide +kernel) (by decide +kernel)

end LinkedViews.Key
