import LinkedViews.Proofs.Browser.Number
import LinkedViews.Preview.Key
import LinkedViews.Proofs.Text.Lexicographic

/-!
Values of a script and how it compares them. Two texts are compared by the units in which a script
stores them, of which a character beyond the basic plane has two; all else is compared as numbers.
-/

namespace LinkedViews.Browser

open Lexicographic

inductive Value where
  | null
  | boolean (value : Bool)
  | number (value : Binary64)
  | text (value : String)
deriving DecidableEq, Repr

/-- The units of a character: itself, or a pair from a range in which no characters lie. -/
def unitsOf (c : Char) : List Nat :=
  if c.toNat < 0x10000 then [c.toNat]
  else [0xD800 + (c.toNat - 0x10000) / 0x400, 0xDC00 + (c.toNat - 0x10000) % 0x400]

def units (text : List Char) : List Nat := text.flatMap unitsOf

/-- Orders numbers by their value: both zeros are the same. -/
def order (x : Binary64) : Int := if x.isZero then 0 else x.rank

namespace Value

/-- The value of a member of a record; a number is read from its text. -/
def ofJson? : Json → Option Value
  | .null => some null
  | .boolean value => some (boolean value)
  | .integer value => some (number (numberOfText (Numeral.ofInt value)))
  | .real value =>
    some (if value.isFinite then number (numberOfText (Numeral.json value)) else null)
  | .text value => some (text value)
  | _ => none

def toNumber : Value → Binary64
  | null => .zero
  | boolean value => if value then .one else .zero
  | number value => value
  | text value => numberOfText value

/-- Whether a value is less than another; unknown where one of them is no number. -/
def less? : Value → Value → Option Bool
  | text a, text b => some (compare (units a.toList) (units b.toList) = .lt)
  | a, b =>
    if a.toNumber.isNaN || b.toNumber.isNaN then none
    else some (order a.toNumber < order b.toNumber)

/-- Whether two values are both texts or both stand for numbers. -/
def Comparable (a b : Value) : Prop := (less? a b).isSome = true

instance (a b : Value) : Decidable (Comparable a b) :=
  inferInstanceAs (Decidable (_ = true))

/-- Whether an ordering is the one that comparisons in both directions give. -/
def Agrees (ordering : Ordering) (a b : Value) : Prop :=
  (ordering = .lt ↔ less? a b = some true) ∧ (ordering = .gt ↔ less? b a = some true) ∧
    (ordering = .eq ↔ less? a b = some false ∧ less? b a = some false)

instance (ordering : Ordering) (a b : Value) : Decidable (Agrees ordering a b) :=
  inferInstanceAs (Decidable (_ ∧ _))

/-- The ordering of two values that can be compared. -/
def ordering : Value → Value → Ordering
  | text a, text b => compare (units a.toList) (units b.toList)
  | a, b => compare (order a.toNumber) (order b.toNumber)

variable {a b : Value} {result : Ordering}

theorem comparable_texts (s t : String) : Comparable (text s) (text t) := rfl

theorem less?_texts (s t : String) :
    less? (text s) (text t) = some (decide (ordering (text s) (text t) = .lt)) ∧
      less? (text t) (text s) = some (decide (ordering (text s) (text t) = .gt)) := by
  refine ⟨rfl, ?_⟩
  have swap : compare (units t.toList) (units s.toList) =
      (compare (units s.toList) (units t.toList)).swap := Std.OrientedOrd.eq_swap
  change some (decide (compare (units t.toList) (units s.toList) = .lt)) =
    some (decide (compare (units s.toList) (units t.toList) = .gt))
  rw [swap]
  cases compare (units s.toList) (units t.toList) <;> rfl

theorem less?_numbers (one : a.toNumber.isNaN = false) (other : b.toNumber.isNaN = false) :
    (if a.toNumber.isNaN || b.toNumber.isNaN then none
      else some (decide (order a.toNumber < order b.toNumber))) =
        some (decide (compare (order a.toNumber) (order b.toNumber) = .lt)) ∧
      (if b.toNumber.isNaN || a.toNumber.isNaN then none
        else some (decide (order b.toNumber < order a.toNumber))) =
        some (decide (compare (order a.toNumber) (order b.toNumber) = .gt)) := by
  simp [one, other, compare_lt_iff_lt, compare_gt_iff_gt]

theorem less?_eq (comparable : Comparable a b) :
    less? a b = some (decide (ordering a b = .lt)) ∧
      less? b a = some (decide (ordering a b = .gt)) := by
  have numbers (mixed : less? a b = if a.toNumber.isNaN || b.toNumber.isNaN then none
      else some (decide (order a.toNumber < order b.toNumber))) :
      a.toNumber.isNaN = false ∧ b.toNumber.isNaN = false := by
    rw [Comparable, mixed] at comparable
    split at comparable
    · contradiction
    · rename_i number
      simpa using number
  cases a with
  | text s =>
      cases b with
      | text t => exact less?_texts s t
      | _ => exact less?_numbers (numbers rfl).1 (numbers rfl).2
  | _ =>
      cases b <;> exact less?_numbers (numbers rfl).1 (numbers rfl).2

theorem agrees_iff (comparable : Comparable a b) : Agrees result a b ↔ result = ordering a b := by
  obtain ⟨front, back⟩ := less?_eq comparable
  rw [Agrees, front, back]
  cases result <;> cases ordering a b <;> decide

end Value

/-! ## Texts -/

/-- Whether one of two characters lies beyond the basic plane and the other in its last part, above
the units of pairs. -/
def Crosses (c d : Char) : Prop :=
  0x10000 ≤ c.toNat ∧ 0xE000 ≤ d.toNat ∧ d.toNat < 0x10000 ∨
    0x10000 ≤ d.toNat ∧ 0xE000 ≤ c.toNat ∧ c.toNat < 0x10000

/-- Whether the first characters in which two texts differ cross. -/
def Diverges (front back : List Char) : Prop :=
  ∃ common c d rest more, front = common ++ c :: rest ∧ back = common ++ d :: more ∧ Crosses c d

variable {c d : Char} {rest more : List Char}

theorem isScalar (c : Char) :
    c.toNat < 0xD800 ∨ 0xDFFF < c.toNat ∧ c.toNat < 0x110000 := c.valid

theorem unitsOf_basic (basic : c.toNat < 0x10000) : unitsOf c = [c.toNat] := if_pos basic

theorem unitsOf_pair (beyond : 0x10000 ≤ c.toNat) :
    unitsOf c =
      [0xD800 + (c.toNat - 0x10000) / 0x400, 0xDC00 + (c.toNat - 0x10000) % 0x400] :=
  if_neg (Nat.not_lt.mpr beyond)

/-- Where characters differ their units decide, and they decide as the characters do unless these
cross. -/
theorem compare_units_cons (other : c ≠ d) (rest more : List Char) :
    compare (units (c :: rest)) (units (d :: more)) = compare c.toNat d.toNat ↔ ¬ Crosses c d := by
  have distinct : c.toNat ≠ d.toNat := fun same => other (Char.toNat_inj.mp same)
  have first := isScalar c
  have second := isScalar d
  rw [units, units, List.flatMap_cons, List.flatMap_cons, Crosses]
  rcases Nat.lt_or_ge c.toNat 0x10000 with one | one
  · rcases Nat.lt_or_ge d.toNat 0x10000 with two | two
    · rw [unitsOf_basic one, unitsOf_basic two, List.singleton_append, List.singleton_append,
        List.compare_cons_cons, then_eq_of_ne distinct]
      simp only [true_iff]
      omega
    · rw [unitsOf_basic one, unitsOf_pair two, List.singleton_append, List.cons_append,
        List.compare_cons_cons, then_eq_of_ne (by omega), compare_eq_compare_iff]
      omega
  · rcases Nat.lt_or_ge d.toNat 0x10000 with two | two
    · rw [unitsOf_pair one, unitsOf_basic two, List.singleton_append, List.cons_append,
        List.compare_cons_cons, then_eq_of_ne (by omega), compare_eq_compare_iff]
      omega
    · rw [unitsOf_pair one, unitsOf_pair two]
      simp only [List.cons_append, List.nil_append, List.compare_cons_cons]
      by_cases high : (c.toNat - 0x10000) / 0x400 = (d.toNat - 0x10000) / 0x400
      · have low : 0xDC00 + (c.toNat - 0x10000) % 0x400 ≠ 0xDC00 + (d.toNat - 0x10000) % 0x400 := by
          omega
        rw [high, compare_eq_iff_eq.mpr rfl, Ordering.eq_then, then_eq_of_ne low,
          compare_eq_compare_iff]
        omega
      · rw [then_eq_of_ne (by omega), compare_eq_compare_iff]
        omega

theorem diverges_cons_self : Diverges (c :: rest) (c :: more) ↔ Diverges rest more := by
  constructor
  · rintro ⟨common, e, f, front, back, one, two, crosses⟩
    cases common with
    | nil =>
        obtain ⟨rfl, _⟩ := List.cons.inj one
        obtain ⟨rfl, _⟩ := List.cons.inj two
        unfold Crosses at crosses
        omega
    | cons g tail =>
        exact ⟨tail, e, f, front, back, (List.cons.inj one).2, (List.cons.inj two).2, crosses⟩
  · rintro ⟨common, e, f, front, back, rfl, rfl, crosses⟩
    exact ⟨c :: common, e, f, front, back, rfl, rfl, crosses⟩

theorem diverges_cons (other : c ≠ d) : Diverges (c :: rest) (d :: more) ↔ Crosses c d := by
  constructor
  · rintro ⟨common, e, f, front, back, one, two, crosses⟩
    cases common with
    | nil =>
        obtain ⟨rfl, _⟩ := List.cons.inj one
        obtain ⟨rfl, _⟩ := List.cons.inj two
        exact crosses
    | cons g tail =>
        exact absurd ((List.cons.inj one).1.trans (List.cons.inj two).1.symm) other
  · exact fun crosses => ⟨[], c, d, rest, more, rfl, rfl, crosses⟩

theorem units_cons_ne_nil (c : Char) (rest : List Char) :
    ∃ n tail, units (c :: rest) = n :: tail := by
  rcases Nat.lt_or_ge c.toNat 0x10000 with basic | beyond
  · exact ⟨_, _, by rw [units, List.flatMap_cons, unitsOf_basic basic, List.singleton_append]⟩
  · exact ⟨_, _, by rw [units, List.flatMap_cons, unitsOf_pair beyond, List.cons_append]⟩

/-- Units order texts as code points do, but for texts that diverge. -/
theorem compare_units_iff (front back : List Char) :
    compare (units front) (units back) = compare (front.map Char.toNat) (back.map Char.toNat) ↔
      ¬ Diverges front back := by
  induction front generalizing back with
  | nil =>
      have never : ¬ Diverges [] back := by
        rintro ⟨common, _, _, _, _, one, _⟩
        simp at one
      cases back with
      | nil => simp [never]
      | cons d more =>
          obtain ⟨n, tail, shape⟩ := units_cons_ne_nil d more
          rw [shape]
          simp [never, units, List.compare_nil_cons]
  | cons c rest ih =>
      cases back with
      | nil =>
          have never : ¬ Diverges (c :: rest) [] := by
            rintro ⟨common, _, _, _, _, _, two, _⟩
            simp at two
          obtain ⟨n, tail, shape⟩ := units_cons_ne_nil c rest
          rw [shape]
          simp [never, units, List.compare_cons_nil]
      | cons d more =>
          rw [List.map_cons, List.map_cons, List.compare_cons_cons]
          by_cases same : c = d
          · subst same
            rw [diverges_cons_self, ← ih, compare_eq_iff_eq.mpr rfl, Ordering.eq_then]
            exact iff_of_eq (congrArg (· = _) (compare_append_left (unitsOf c) _ _))
          · rw [then_eq_of_ne fun equal => same (Char.toNat_inj.mp equal), compare_units_cons same,
              diverges_cons same]

end LinkedViews.Browser
