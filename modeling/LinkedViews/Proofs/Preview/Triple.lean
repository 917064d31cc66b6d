import LinkedViews.Proofs.Number.Digits
import LinkedViews.Proofs.Preview.Domain

/-!
Keys of three fields, two numbers and a color. They are ordered by their first parts that differ,
numbers as such. Scripts compare the texts of the three parts, so that 10 comes before 9 there, and
the bounds of a chart are those of a script only where such numbers do not meet.
-/

namespace LinkedViews

/-- What a row of a scatter plot holds. -/
structure Point where
  x : Int64
  y : Int64
  color : String
deriving DecidableEq, Repr

namespace Point

open Browser Lexicographic Numeral

variable {p q : Point} {rest more : List Char}

/-- Whether scripts hold both numbers without rounding. -/
def IsExact (p : Point) : Prop := p.x.toInt.natAbs < 2 ^ 53 ∧ p.y.toInt.natAbs < 2 ^ 53

instance (p : Point) : Decidable p.IsExact := inferInstanceAs (Decidable (_ ∧ _))

def key (p : Point) : Key :=
  .tuple [.number (.ofInt p.x.toInt), .number (.ofInt p.y.toInt), .text p.color]

/-- The text as which scripts compare the list of the three parts. -/
def text (p : Point) : String :=
  String.intercalate "," [ofInt p.x.toInt, ofInt p.y.toInt, p.color]

/-- Whether the first parts in which two points differ are ordered alike in texts and keys. -/
def Aligned (p q : Point) : Prop :=
  if p.x ≠ q.x then InOrder p.x.toInt q.x.toInt
  else if p.y ≠ q.y then InOrder p.y.toInt q.y.toInt
  else ¬ Diverges p.color.toList q.color.toList

theorem aligned_self (p : Point) : p.Aligned p := by
  rw [Aligned, if_neg (not_not.mpr rfl), if_neg (not_not.mpr rfl), ← compare_units_iff]
  simp

/-! ## Order -/

theorem units_append (front back : List Char) : units (front ++ back) = units front ++ units back :=
  List.flatMap_append

theorem units_of_basic {text : List Char} (basic : ∀ c ∈ text, c.toNat < 0x10000) :
    units text = codes text := by
  induction text with
  | nil => rfl
  | cons c rest ih =>
      rw [units, List.flatMap_cons, unitsOf_basic (basic c List.mem_cons_self)]
      exact congrArg (c.toNat :: ·) (ih fun d member => basic d (List.mem_cons_of_mem c member))

theorem toNat_of_mem_ofInt {a : Int} {c : Char} (member : c ∈ (ofInt a).toList) :
    44 < c.toNat ∧ c.toNat < 0x10000 := by
  have digit (inside : c ∈ digits a.natAbs) : 44 < c.toNat ∧ c.toNat < 0x10000 := by
    have range : 48 ≤ c.toNat ∧ c.toNat ≤ 57 :=
      Char.isDigit_iff_toNat.mp (isDigit_of_mem_digits inside)
    omega
  rw [toList_ofInt] at member
  split at member
  · obtain rfl | inside := List.mem_cons.mp member
    · decide
    · exact digit inside
  · exact digit member

theorem units_ofInt (a : Int) : units (ofInt a).toList = codes (ofInt a).toList :=
  units_of_basic fun _ member => (toNat_of_mem_ofInt member).2

theorem above_comma (a : Int) : ∀ code ∈ codes (ofInt a).toList, 44 < code := by
  intro code member
  obtain ⟨c, inside, rfl⟩ := List.mem_map.mp member
  exact (toNat_of_mem_ofInt inside).1

theorem units_text (p : Point) : units p.text.toList = codes (ofInt p.x.toInt).toList ++ 44 ::
    (codes (ofInt p.y.toInt).toList ++ 44 :: units p.color.toList) := by
  have comma (rest : List Char) : units (',' :: rest) = 44 :: units rest := rfl
  have joined : p.text = ofInt p.x.toInt ++ "," ++ ofInt p.y.toInt ++ "," ++ p.color := rfl
  simp [joined, units_append, units_ofInt, comma]

theorem compare_units_text (p q : Point) :
    compare (units p.text.toList) (units q.text.toList) =
      (compare (codes (ofInt p.x.toInt).toList) (codes (ofInt q.x.toInt).toList)).then
        ((compare (codes (ofInt p.y.toInt).toList) (codes (ofInt q.y.toInt).toList)).then
          (compare (units p.color.toList) (units q.color.toList))) := by
  rw [units_text, units_text, compare_separated (above_comma _) (above_comma _),
    compare_separated (above_comma _) (above_comma _)]

theorem compare_rank_ofInt {a b : Int} (one : a.natAbs < 2 ^ 53) (two : b.natAbs < 2 ^ 53) :
    compare (Binary64.ofInt a).rank (Binary64.ofInt b).rank = compare a b := by
  rw [compare_eq_compare_iff, Binary64.rank_ofInt_lt_iff (Nat.le_of_lt one) (Nat.le_of_lt two),
    Binary64.rank_ofInt_lt_iff (Nat.le_of_lt two) (Nat.le_of_lt one)]
  exact ⟨Iff.rfl, Iff.rfl⟩

theorem compare_key (one : p.IsExact) (two : q.IsExact) :
    p.key.compare q.key =
      (compare p.x.toInt q.x.toInt).then ((compare p.y.toInt q.y.toInt).then
        (compare (codes p.color.toList) (codes q.color.toList))) := by
  simp only [key, Key.compare, Key.compareItems, compare_rank_ofInt one.1 two.1,
    compare_rank_ofInt one.2 two.2, Ordering.then_eq]
  rfl

theorem codes_ofInt_injective {a b : Int} (same : codes (ofInt a).toList = codes (ofInt b).toList) :
    a = b := by
  have text : ofInt a = ofInt b := Key.codePoints_injective same
  have read := readInt?_ofInt a
  rw [text, readInt?_ofInt] at read
  exact (Option.some.inj read).symm

/-- Where two numbers differ their texts decide, and they decide as the numbers do if these are in
order. -/
theorem then_compare_iff {a b : Int} (other : a ≠ b) (first second : Ordering) :
    (compare a b).then first =
        (compare (codes (ofInt a).toList) (codes (ofInt b).toList)).then second ↔
      InOrder a b := by
  have numbers : compare a b ≠ .eq := fun same => other (compare_eq_iff_eq.mp same)
  have texts : compare (codes (ofInt a).toList) (codes (ofInt b).toList) ≠ .eq :=
    fun same => other (codes_ofInt_injective (Std.LawfulEqOrd.eq_of_compare same))
  rw [then_of_ne numbers, then_of_ne texts, eq_comm, compare_ofInt_iff other]

theorem compare_key_iff (one : p.IsExact) (two : q.IsExact) :
    p.key.compare q.key = Value.ordering (.text p.text) (.text q.text) ↔ Aligned p q := by
  rw [compare_key one two, Value.ordering, compare_units_text, Aligned]
  by_cases sameX : p.x = q.x
  · by_cases sameY : p.y = q.y
    · rw [if_neg (not_not.mpr sameX), if_neg (not_not.mpr sameY), sameX, sameY]
      simp only [Std.ReflCmp.compare_self, Ordering.eq_then]
      exact Iff.trans eq_comm (compare_units_iff p.color.toList q.color.toList)
    · rw [if_neg (not_not.mpr sameX), if_pos sameY, sameX]
      simp only [Std.ReflCmp.compare_self, Ordering.eq_then]
      exact then_compare_iff (fun same => sameY (Int64.toInt_inj.mp same)) _ _
  · rw [if_pos sameX]
    exact then_compare_iff (fun same => sameX (Int64.toInt_inj.mp same)) _ _

/-- Points with one key are the same. -/
theorem eq_of_key_eq (one : p.IsExact) (two : q.IsExact) (same : p.key = q.key) : p = q := by
  have equal : p.key.compare q.key = .eq := by
    rw [same]
    exact Std.ReflCmp.compare_self
  rw [compare_key one two, Ordering.then_eq_eq, Ordering.then_eq_eq] at equal
  obtain ⟨x, y, color⟩ := equal
  cases p
  cases q
  congr
  · exact Int64.toInt_inj.mp (compare_eq_iff_eq.mp x)
  · exact Int64.toInt_inj.mp (compare_eq_iff_eq.mp y)
  · exact Key.codePoints_injective (Std.LawfulEqOrd.eq_of_compare color)

end Point

/-! ## Tables -/

namespace Table

variable {table : Table} {x y color field : String} {row front back : List Cell} {p q : Point}

/-- Whether a row holds a point under three names. -/
def HoldsPoint (table : Table) (x y color : String) (row : List Cell) (p : Point) : Prop :=
  table.cellOf row x = .integer p.x ∧ table.cellOf row y = .integer p.y ∧
    table.cellOf row color = .text p.color

theorem holdsPoint_unique (one : table.HoldsPoint x y color row p)
    (two : table.HoldsPoint x y color row q) : p = q := by
  have sameX := Cell.integer.inj (one.1.symm.trans two.1)
  have sameY := Cell.integer.inj (one.2.1.symm.trans two.2.1)
  have sameColor := Cell.text.inj (one.2.2.symm.trans two.2.2)
  cases p
  cases q
  congr

theorem key_of_holdsPoint (holds : table.HoldsPoint x y color row p) :
    (Projection.triple x y color).key table row = p.key := by
  obtain ⟨ownX, ownY, ownColor⟩ := holds
  rw [Projection.key, ownX, ownY, ownColor]
  rfl

theorem value?_of_holdsPoint (once : ∀ name ∈ [x, y, color], table.columnNames.count name = 1)
    (holds : table.HoldsPoint x y color row p) (exactly : p.IsExact) :
    (Projection.triple x y color).value? (record table.columns row) = some (.text p.text) := by
  have readX := member_record_of_eq (once x (by simp)) holds.1 nofun
  have readY := member_record_of_eq (once y (by simp)) holds.2.1 nofun
  have readColor := member_record_of_eq (once color (by simp)) holds.2.2 nofun
  simp only [Projection.value?, readX, readY, readColor, Cell.value, Option.bind_some,
    Option.map_some, Browser.Value.toNumber, Browser.joined,
    Browser.textOfNumber_ofInt exactly.1, Browser.textOfNumber_ofInt exactly.2]
  rfl

theorem agrees_of_holdsPoint (one : table.HoldsPoint x y color front p)
    (two : table.HoldsPoint x y color back q) (exactP : p.IsExact) (exactQ : q.IsExact) :
    Browser.Value.Agrees (((Projection.triple x y color).key table front).compare
      ((Projection.triple x y color).key table back)) (.text p.text) (.text q.text) ↔
        p.Aligned q := by
  rw [key_of_holdsPoint one, key_of_holdsPoint two,
    Browser.Value.agrees_iff (Browser.Value.comparable_texts _ _)]
  exact Point.compare_key_iff exactP exactQ

theorem cellOf_eq (one : table.HoldsPoint x y color front p)
    (two : table.HoldsPoint x y color back p) (known : field ∈ [x, y, color]) :
    table.cellOf front field = table.cellOf back field := by
  simp only [List.mem_cons, List.not_mem_nil, or_false] at known
  obtain rfl | rfl | rfl := known
  · rw [one.1, two.1]
  · rw [one.2.1, two.2.1]
  · rw [one.2.2, two.2.2]

end Table

namespace Projection

open Browser Table

variable {table : Table} {x y color field : String}

/-- Two rows with points are ordered by their keys as a script orders the texts of the points if
and only if the points are aligned. If all points of a table are aligned, the bounds that are read
from its rows are those of the rows that a script takes from the ends of its order. -/
theorem agrees_triple (once : ∀ name ∈ [x, y, color], table.columnNames.count name = 1)
    (points : ∀ row ∈ table.rows, ∃ p : Point, p.IsExact ∧ table.HoldsPoint x y color row p)
    (known : field ∈ [x, y, color]) :
    (∀ front ∈ table.rows, ∀ back ∈ table.rows, ∃ p q : Point,
      table.HoldsPoint x y color front p ∧ table.HoldsPoint x y color back q ∧
      (triple x y color).value? (record table.columns front) = some (.text p.text) ∧
      (triple x y color).value? (record table.columns back) = some (.text q.text) ∧
      (Value.Agrees
        (((triple x y color).key table front).compare ((triple x y color).key table back))
        (.text p.text) (.text q.text) ↔ p.Aligned q)) ∧
    ((∀ front ∈ table.rows, ∀ back ∈ table.rows, ∀ p q : Point,
        table.HoldsPoint x y color front p → table.HoldsPoint x y color back q → p.Aligned q) →
      table.rows ≠ [] →
      ∃ bounds, Domain.ofTable? (triple x y color) field table = some bounds ∧
        (∃ row, Domain.IsBottom (triple x y color) table row) ∧
        (∃ row, Domain.IsTop (triple x y color) table row) ∧
        (∀ row, Domain.IsBottom (triple x y color) table row →
          bounds.lower = table.cellOf row field) ∧
        ∀ row, Domain.IsTop (triple x y color) table row →
          bounds.upper = (table.cellOf row field).next) := by
  constructor
  · intro front first back second
    obtain ⟨p, exactP, holdsP⟩ := points front first
    obtain ⟨q, exactQ, holdsQ⟩ := points back second
    exact ⟨p, q, holdsP, holdsQ, value?_of_holdsPoint once holdsP exactP,
      value?_of_holdsPoint once holdsQ exactQ, agrees_of_holdsPoint holdsP holdsQ exactP exactQ⟩
  · intro aligned filled
    apply Domain.ofTable?_of_isOrdered filled
    · intro front first back second
      obtain ⟨p, exactP, holdsP⟩ := points front first
      obtain ⟨q, exactQ, holdsQ⟩ := points back second
      exact ⟨_, _, value?_of_holdsPoint once holdsP exactP, value?_of_holdsPoint once holdsQ exactQ,
        Value.comparable_texts _ _, (agrees_of_holdsPoint holdsP holdsQ exactP exactQ).mpr
          (aligned front first back second p q holdsP holdsQ)⟩
    · intro front first back second same
      obtain ⟨p, exactP, holdsP⟩ := points front first
      obtain ⟨q, exactQ, holdsQ⟩ := points back second
      rw [key_of_holdsPoint holdsP, key_of_holdsPoint holdsQ] at same
      rw [← Point.eq_of_key_eq exactP exactQ same] at holdsQ
      exact cellOf_eq holdsP holdsQ known

theorem agrees_triple_two :
    ∃ table bounds, ofDelimited [] (Text.Utf8.encode "x,y,c\n1,5,a\n2,0,a\n".toList) = .ok table ∧
      Domain.ofTable? (triple "x" "y" "c") "x" table = some bounds ∧
      (∃ row, Domain.IsTop (triple "x" "y" "c") table row) ∧
      ∀ row, Domain.IsTop (triple "x" "y" "c") table row →
        bounds.upper = (table.cellOf row "x").next := by
  obtain ⟨table, shape⟩ : ∃ table : Table, table = ⟨[⟨"x", .integer⟩, ⟨"y", .integer⟩, ⟨"c", .text⟩],
    [[.integer 1, .integer 5, .text "a"], [.integer 2, .integer 0, .text "a"]]⟩ := ⟨_, rfl⟩
  have parsed : ofDelimited [] (Text.Utf8.encode "x,y,c\n1,5,a\n2,0,a\n".toList) = .ok table :=
    shape ▸ eq_ok_of_toOption (by decide +kernel)
  have holds : ∀ row ∈ table.rows, table.HoldsPoint "x" "y" "c" row ⟨1, 5, "a"⟩ ∨
      table.HoldsPoint "x" "y" "c" row ⟨2, 0, "a"⟩ := by
    intro row member
    rw [shape, List.mem_pair] at member
    obtain rfl | rfl := member <;> rw [shape]
    · exact .inl ⟨rfl, rfl, rfl⟩
    · exact .inr ⟨rfl, rfl, rfl⟩
  have points : ∀ row ∈ table.rows, ∃ p : Point, p.IsExact ∧
      table.HoldsPoint "x" "y" "c" row p := fun row member =>
    (holds row member).elim (fun own => ⟨_, by decide, own⟩) (fun own => ⟨_, by decide, own⟩)
  have aligned : ∀ front ∈ table.rows, ∀ back ∈ table.rows, ∀ p q : Point,
      table.HoldsPoint "x" "y" "c" front p → table.HoldsPoint "x" "y" "c" back q → p.Aligned q := by
    intro front first back second p q one two
    obtain own | own := holds front first <;> obtain other | other := holds back second <;>
      rw [holdsPoint_unique one own, holdsPoint_unique two other]
    · exact Point.aligned_self _
    · rw [Point.Aligned, if_pos (by decide)]
      decide +kernel
    · rw [Point.Aligned, if_pos (by decide)]
      decide +kernel
    · exact Point.aligned_self _
  have once : ∀ name ∈ ["x", "y", "c"], table.columnNames.count name = 1 := by
    rw [shape]
    decide
  obtain ⟨_, ends⟩ := agrees_triple once points (show "x" ∈ ["x", "y", "c"] by simp)
  obtain ⟨bounds, made, _, top, _, upper⟩ := ends aligned (by rw [shape]; simp)
  exact ⟨table, bounds, parsed, made, top, upper⟩

/-- The program has 9 before 10, a script has the text of 10 before that of 9. -/
theorem not_agrees_ten :
    ∃ table, ofDelimited [] (Text.Utf8.encode "x,y,c\n10,0,a\n9,0,a\n".toList) = .ok table ∧
      ∃ front back, table.rows = [front, back] ∧
        table.HoldsPoint "x" "y" "c" front ⟨10, 0, "a"⟩ ∧
        table.HoldsPoint "x" "y" "c" back ⟨9, 0, "a"⟩ ∧
        (triple "x" "y" "c").value? (record table.columns front) = some (.text "10,0,a") ∧
        (triple "x" "y" "c").value? (record table.columns back) = some (.text "9,0,a") ∧
        ((triple "x" "y" "c").key table front).compare ((triple "x" "y" "c").key table back) = .gt ∧
        Value.less? (.text "10,0,a") (.text "9,0,a") = some true ∧
        ¬ Value.Agrees .gt (.text "10,0,a") (.text "9,0,a") ∧
        Domain.ofTable? (triple "x" "y" "c") "x" table = some ⟨.integer 9, .integer 11⟩ := by
  refine ⟨⟨[⟨"x", .integer⟩, ⟨"y", .integer⟩, ⟨"c", .text⟩],
    [[.integer 10, .integer 0, .text "a"], [.integer 9, .integer 0, .text "a"]]⟩,
    eq_ok_of_toOption (by decide +kernel), _, _, rfl, ⟨rfl, rfl, rfl⟩, ⟨rfl, rfl, rfl⟩, ?_, ?_, ?_, ?_,
    ?_, ?_⟩
  · decide +kernel
  · decide +kernel
  · decide +kernel
  · decide +kernel
  · decide +kernel
  · decide +kernel

end Projection

end LinkedViews
