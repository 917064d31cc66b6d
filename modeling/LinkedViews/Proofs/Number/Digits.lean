import LinkedViews.Proofs.Number.Json
import LinkedViews.Proofs.Text.Lexicographic

/-!
The order of whole numbers as texts. Numbers with equally many digits are ordered as they are. Of
others the shorter one is compared with the leading digits of the longer one, as many as it has.
-/

namespace LinkedViews.Numeral

open Lexicographic

variable {n m k : Nat} {a b : Int}

def codes (text : List Char) : List Nat := text.map Char.toNat

theorem length_digits_pos (n : Nat) : 0 < (digits n).length :=
  List.length_pos_iff.mpr (digits_ne_nil n)

theorem digits_of_lt (small : n < 10) : digits n = [digitChar n] := by
  rw [digits, if_pos small]

theorem digits_of_not_lt (large : ¬ n < 10) :
    digits n = digits (n / 10) ++ [digitChar (n % 10)] := by
  rw [digits, if_neg large]

theorem length_digits_of_not_lt (large : ¬ n < 10) :
    (digits n).length = (digits (n / 10)).length + 1 := by
  rw [digits_of_not_lt large, List.length_append, List.length_singleton]

theorem lt_ten_iff : n < 10 ↔ (digits n).length = 1 := by
  by_cases small : n < 10
  · simp [digits_of_lt small, small]
  · have positive := length_digits_pos (n / 10)
    rw [length_digits_of_not_lt small]
    omega

theorem length_digits_mono (le : n ≤ m) : (digits n).length ≤ (digits m).length := by
  induction n using digits.induct generalizing m with
  | case1 n small =>
      rw [digits_of_lt small]
      exact length_digits_pos m
  | case2 n large ih =>
      rw [length_digits_of_not_lt large, length_digits_of_not_lt (n := m) (by omega)]
      exact Nat.succ_le_succ (ih (by omega))

/-- The leading digits of a number are those of a quotient. -/
theorem digits_split (less : k < (digits m).length) :
    ∃ tail, digits m = digits (m / 10 ^ k) ++ tail ∧ tail.length = k := by
  induction k generalizing m with
  | zero => exact ⟨[], by simp, rfl⟩
  | succ k ih =>
      have large : ¬ m < 10 := by
        rw [lt_ten_iff]
        omega
      rw [length_digits_of_not_lt large] at less
      obtain ⟨tail, shape, length⟩ := ih (m := m / 10) (by omega)
      refine ⟨tail ++ [digitChar (m % 10)], ?_, by simp [length]⟩
      rw [digits_of_not_lt large, shape, Nat.pow_succ', Nat.div_div_eq_div_mul, List.append_assoc]

theorem toNat_digitChar {digit : Nat} (bound : digit < 10) :
    (digitChar digit).toNat = 48 + digit := by
  have all : ∀ digit < 10, (digitChar digit).toNat = 48 + digit := by decide
  exact all digit bound

theorem compare_digitChar (n m : Nat) :
    compare (codes [digitChar (n % 10)]) (codes [digitChar (m % 10)]) =
      compare (n % 10) (m % 10) := by
  rw [codes, codes, List.map_singleton, List.map_singleton, List.compare_cons_cons,
    toNat_digitChar (Nat.mod_lt n (by decide)), toNat_digitChar (Nat.mod_lt m (by decide))]
  have shift : compare (48 + n % 10) (48 + m % 10) = compare (n % 10) (m % 10) := by
    rw [compare_eq_compare_iff]
    omega
  rw [shift]
  cases compare (n % 10) (m % 10) <;> rfl

theorem compare_by_tens (n m : Nat) :
    compare n m = (compare (n / 10) (m / 10)).then (compare (n % 10) (m % 10)) := by
  by_cases same : n / 10 = m / 10
  · rw [compare_eq_iff_eq.mpr same, Ordering.eq_then, compare_eq_compare_iff]
    omega
  · rw [then_eq_of_ne same, compare_eq_compare_iff]
    omega

/-- Numbers with equally many digits are ordered as they are. -/
theorem compare_digits_of_length (even : (digits n).length = (digits m).length) :
    compare (codes (digits n)) (codes (digits m)) = compare n m := by
  induction n using digits.induct generalizing m with
  | case1 n small =>
      have short : m < 10 := lt_ten_iff.mpr (even.symm.trans (lt_ten_iff.mp small))
      have own := compare_digitChar n m
      rw [Nat.mod_eq_of_lt small, Nat.mod_eq_of_lt short] at own
      rw [digits_of_lt small, digits_of_lt short]
      exact own
  | case2 n large ih =>
      have long : ¬ m < 10 :=
        fun short => large (lt_ten_iff.mpr (even.trans (lt_ten_iff.mp short)))
      rw [length_digits_of_not_lt large, length_digits_of_not_lt long] at even
      have inner := Nat.succ.inj even
      rw [digits_of_not_lt large, digits_of_not_lt long, codes, codes, List.map_append,
        List.map_append, compare_append (by simpa using inner), compare_by_tens n m]
      exact congrArg₂ Ordering.then (ih inner) (compare_digitChar n m)

/-- Whether a number is at most what the leading digits of another one make, as many of them as it
has itself. -/
def Leads (n m : Nat) : Prop := n ≤ m / 10 ^ ((digits m).length - (digits n).length)

instance (n m : Nat) : Decidable (Leads n m) := inferInstanceAs (Decidable (_ ≤ _))

/-- A number comes before a greater one as text if and only if it leads it. -/
theorem compare_digits (less : n < m) :
    compare (codes (digits n)) (codes (digits m)) = if Leads n m then .lt else .gt := by
  have lengths := length_digits_mono (Nat.le_of_lt less)
  have positive := length_digits_pos n
  obtain ⟨k, fewer⟩ : ∃ k, k = (digits m).length - (digits n).length := ⟨_, rfl⟩
  have leads : Leads n m ↔ n ≤ m / 10 ^ k := by rw [Leads, ← fewer]
  obtain ⟨tail, shape, length⟩ := digits_split (m := m) (k := k) (by omega)
  have total := congrArg List.length shape
  rw [List.length_append] at total
  have even : (digits n).length = (digits (m / 10 ^ k)).length := by omega
  have split : codes (digits m) = codes (digits (m / 10 ^ k)) ++ codes tail := by
    rw [shape]
    exact List.map_append
  rw [split, ← List.append_nil (codes (digits n)), compare_append (by simpa [codes] using even),
    compare_digits_of_length even]
  rcases Nat.lt_trichotomy n (m / 10 ^ k) with before | same | behind
  · rw [compare_lt_iff_lt.mpr before, if_pos (leads.mpr (Nat.le_of_lt before))]
    rfl
  · rw [compare_eq_iff_eq.mpr same, if_pos (leads.mpr (Nat.le_of_eq same))]
    cases tail with
    | nil =>
        -- Without further digits both numbers are the same.
        have none : k = 0 := length.symm
        rw [none, Nat.pow_zero, Nat.div_one] at same
        omega
    | cons c rest => rfl
  · rw [compare_gt_iff_gt.mpr behind, if_neg (leads.not.mpr (Nat.not_le.mpr behind))]
    rfl

/-! ## Signs -/

/-- Whether two different numbers are ordered alike as numbers and as texts: numbers of different
sign are, two others if the lesser leads the greater, and two negative ones if it does not. -/
def InOrder (a b : Int) : Prop :=
  if a < 0 ∧ b < 0 then ¬ Leads (min a.natAbs b.natAbs) (max a.natAbs b.natAbs)
  else a < 0 ∨ b < 0 ∨ Leads (min a.natAbs b.natAbs) (max a.natAbs b.natAbs)

instance (a b : Int) : Decidable (InOrder a b) := inferInstanceAs (Decidable (ite _ _ _))

theorem compare_swapped_ne (other : n ≠ m) : compare n m ≠ compare m n := by
  rw [Ne, compare_eq_compare_iff]
  omega

/-- Different numbers are ordered as texts as they are if the lesser leads the greater, and the
other way round if not. -/
theorem compare_digits_eq (other : n ≠ m) :
    compare (codes (digits n)) (codes (digits m)) =
      if Leads (min n m) (max n m) then compare n m else compare m n := by
  rcases Nat.lt_or_gt_of_ne other with less | greater
  · rw [compare_digits less, compare_lt_iff_lt.mpr less, compare_gt_iff_gt.mpr less,
      Nat.min_eq_left (Nat.le_of_lt less), Nat.max_eq_right (Nat.le_of_lt less)]
  · have swapped : compare (codes (digits n)) (codes (digits m)) =
        (compare (codes (digits m)) (codes (digits n))).swap := Std.OrientedOrd.eq_swap
    rw [swapped, compare_digits greater, compare_gt_iff_gt.mpr greater,
      compare_lt_iff_lt.mpr greater, Nat.min_eq_right (Nat.le_of_lt greater),
      Nat.max_eq_left (Nat.le_of_lt greater)]
    split <;> rfl

theorem codes_ofInt (a : Int) : codes (ofInt a).toList =
    if a < 0 then 45 :: codes (digits a.natAbs) else codes (digits a.natAbs) := by
  rw [toList_ofInt]
  split <;> rfl

theorem exists_codes_digits (n : Nat) :
    ∃ code rest, codes (digits n) = code :: rest ∧ 45 < code := by
  obtain ⟨c, rest, shape⟩ := List.exists_cons_of_ne_nil (digits_ne_nil n)
  have digit : c.isDigit = true := isDigit_of_mem_digits (n := n) (by rw [shape]; simp)
  have range : 48 ≤ c.toNat ∧ c.toNat ≤ 57 := Char.isDigit_iff_toNat.mp digit
  exact ⟨c.toNat, codes rest, by rw [shape]; rfl, by omega⟩

theorem compare_minus (text : List Nat) (n : Nat) :
    compare (45 :: text) (codes (digits n)) = .lt ∧
      compare (codes (digits n)) (45 :: text) = .gt := by
  obtain ⟨code, rest, shape, above⟩ := exists_codes_digits n
  rw [shape, List.compare_cons_cons, List.compare_cons_cons, then_eq_of_ne (Nat.ne_of_lt above),
    then_eq_of_ne (Nat.ne_of_gt above)]
  exact ⟨compare_lt_iff_lt.mpr above, compare_gt_iff_gt.mpr above⟩

/-- Different numbers are ordered alike as numbers and as texts if and only if they are in order. -/
theorem compare_ofInt_iff (other : a ≠ b) :
    compare (codes (ofInt a).toList) (codes (ofInt b).toList) = compare a b ↔ InOrder a b := by
  rw [codes_ofInt, codes_ofInt, InOrder]
  rcases Int.lt_or_le a 0 with one | one <;> rcases Int.lt_or_le b 0 with two | two
  · have distinct : a.natAbs ≠ b.natAbs := by omega
    have mirrored : compare a b = compare b.natAbs a.natAbs := by
      rw [compare_eq_compare_iff]
      omega
    rw [if_pos one, if_pos two, if_pos ⟨one, two⟩, List.compare_cons_cons,
      compare_eq_iff_eq.mpr rfl, Ordering.eq_then, mirrored, compare_digits_eq distinct]
    have unequal := compare_swapped_ne distinct
    split <;> simp [*]
  · have less : compare a b = .lt := compare_lt_iff_lt.mpr (by omega)
    rw [if_pos one, if_neg (Int.not_lt.mpr two), (compare_minus ..).1, less]
    simp [one, Int.not_lt.mpr two]
  · have greater : compare a b = .gt := compare_gt_iff_gt.mpr (by omega)
    rw [if_pos two, if_neg (Int.not_lt.mpr one), (compare_minus ..).2, greater]
    simp [two, Int.not_lt.mpr one]
  · have distinct : a.natAbs ≠ b.natAbs := by omega
    have same : compare a b = compare a.natAbs b.natAbs := by
      rw [compare_eq_compare_iff]
      omega
    rw [if_neg (Int.not_lt.mpr one), if_neg (Int.not_lt.mpr two), if_neg (by omega), same,
      compare_digits_eq distinct]
    have unequal := (compare_swapped_ne distinct).symm
    split <;> simp [*]

end LinkedViews.Numeral
