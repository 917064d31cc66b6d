import LinkedViews.Proofs.Browser.Order
import LinkedViews.Proofs.Number.Whole
import LinkedViews.Proofs.Table.Records

/-!
What the accessors in the scripts of charts give for a record that is decoded as JSON, and how that
is related to the keys of the record's row. Scripts compare lists as the texts of their elements with commas between them,
so this text stands for a list.
-/

namespace LinkedViews

namespace Browser

/-- The text of a number: fewest digits, with an exponent below 10⁻⁶ and from 10²¹ on. Zero has no
sign. -/
def textOfNumber (x : Binary64) : String :=
  if x.isNaN then "NaN"
  else if x.isInfinite then Numeral.signed x.isNegative infinityWord
  else if x.isZero then "0"
  else
    let d := Decimal.shortest .even x.magnitude
    let place := d.exponent + (Numeral.digits d.digits).length
    Numeral.signed x.isNegative
      (if -6 < place ∧ place ≤ 21 then Numeral.positional false d else Numeral.scientific d)

/-- Whole numbers below 2⁵³ are written with all their digits. -/
theorem textOfNumber_ofInt {a : Int} (small : a.natAbs < 2 ^ 53) :
    textOfNumber (.ofInt a) = Numeral.ofInt a := by
  obtain ⟨magnitude, sign⟩ := Binary64.parts_ofInt (Nat.le_of_lt small)
  have finite : Binary64.wholeMagnitude a.natAbs < Binary64.infiniteMagnitude :=
    Binary64.wholeMagnitude_lt (by omega)
  have number : (Binary64.ofInt a).isNaN = false ∧ (Binary64.ofInt a).isInfinite = false :=
    ⟨decide_eq_false (by omega), decide_eq_false (by omega)⟩
  have origin : Binary64.wholeMagnitude 0 = 0 := Binary64.nearestMagnitude_tiny (by simp)
  rw [textOfNumber, number.1, number.2, Binary64.isZero, magnitude, sign]
  simp only [Bool.false_eq_true, if_false, decide_eq_true_eq]
  by_cases zero : a = 0
  · have shown : Numeral.ofInt 0 = "0" := by cbv
    rw [zero, shown]
    exact if_pos origin
  · have positive : 0 < Binary64.wholeMagnitude a.natAbs := by
      rw [← origin, Binary64.wholeMagnitude_lt_iff (by decide) (Nat.le_of_lt small)]
      omega
    obtain ⟨flat, whole⟩ := Decimal.shortest_wholeMagnitude .even small
    generalize Decimal.shortest .even (Binary64.wholeMagnitude a.natAbs) = d at flat whole
    have shown : Numeral.filled d = Numeral.digits a.natAbs := by
      rw [Numeral.filled_eq_digits, whole]
    have nonzero : d.digits ≠ 0 := by
      intro none
      rw [Decimal.whole, none, Nat.zero_mul] at whole
      omega
    have short : (Numeral.digits a.natAbs).length ≤ 16 :=
      Numeral.length_digits_le (by omega) (by decide)
    have place : d.exponent + (Numeral.digits d.digits).length ≤ 16 := by
      have length := congrArg List.length shown
      rw [Numeral.filled, if_neg nonzero, List.length_append, List.length_replicate] at length
      omega
    rw [if_neg (Nat.ne_of_gt positive), if_pos (by omega), Numeral.positional_whole flat, shown,
      Numeral.ofInt_eq_signed]

namespace Value

/-- The text of a value within a list. -/
def element : Value → String
  | null => ""
  | boolean value => if value then "true" else "false"
  | number value => textOfNumber value
  | text value => value

/-- The key with the same content. -/
def key : Value → Key
  | null => .number .zero
  | boolean value => .boolean value
  | number value => .number value
  | text value => .text value

end Value

def joined (x y : Binary64) (color : String) : String :=
  String.intercalate "," [textOfNumber x, textOfNumber y, color]

end Browser

namespace Projection

open Browser

/-- What an accessor gives for a record that has been decoded as JSON, so that every name of a column
is a member of its own; none if a field is missing. -/
def value? (projection : Projection) (record : Json) : Option Value :=
  let member (field : String) := (record.lastMember? field).bind Value.ofJson?
  match projection with
  | raw field => member field
  | numeric field => (member field).map fun value => .number value.toNumber
  | triple x y color =>
    (member x).bind fun x => (member y).bind fun y => (member color).map fun color =>
      .text (joined x.toNumber y.toNumber color.element)

end Projection

namespace Cell

open Browser

variable {cell : Cell}

/-- What a script makes of the JSON value of a cell. -/
def value : Cell → Value
  | null => .null
  | integer value => .number (.ofInt value.toInt)
  | real value => if value.isFinite then .number value else .null
  | boolean value => .boolean value
  | text value => .text value
  | timestamp millis => .number (.ofInt millis.toInt)
  | category code => .number (.ofInt code.toNat)

theorem ofJson?_toJson (cell : Cell) : Value.ofJson? cell.toJson = some cell.value := by
  cases cell with
  | null => rfl
  | boolean value => rfl
  | text value => rfl
  | integer n => rw [toJson, Value.ofJson?, numberOfText_ofInt, value]
  | timestamp n => rw [toJson, Value.ofJson?, numberOfText_ofInt, value]
  | category code => rw [toJson, Value.ofJson?, numberOfText_ofInt, value]
  | real x =>
      by_cases finite : x.isFinite = true
      · simp [toJson, value, Value.ofJson?, finite, numberOfText_json finite]
      · simp [toJson, value, Value.ofJson?, finite]

theorem ofCell_eq_key (cell : Cell) : Key.ofCell cell = cell.value.key := by
  cases cell with
  | real x =>
      by_cases finite : x.isFinite = true <;> simp [Key.ofCell, toNumber, value, Value.key, finite]
  | _ => rfl

theorem toNumber_eq_value (common : ∀ s, cell = .text s → ¬ IsForeign s)
    (number : cell.value.toNumber.isNaN = false) : cell.toNumber = cell.value.toNumber := by
  cases cell with
  | text s => exact numberOfText_eq (common s rfl) number
  | real x =>
      by_cases finite : x.isFinite = true <;> simp [toNumber, value, Value.toNumber, finite]
  | _ => rfl

end Cell

namespace Table

variable {table : Table} {categorical : List String} {bytes : List UInt8} {name : String}
  {cells : List Cell}

theorem find?_reverse {α : Type} {p : α → Bool} {items : List α} (single : items.countP p ≤ 1) :
    items.reverse.find? p = items.find? p := by
  rw [← List.head?_filter, ← List.head?_filter, List.filter_reverse]
  rw [List.countP_eq_length_filter] at single
  match items.filter p, single with
  | [], _ => rfl
  | [item], _ => rfl

theorem countP_members (columns : List Column) (cells : List Cell) :
    (List.zipWith (fun column cell => (column.name, cell.toJson)) columns cells).countP
      (fun member => member.1 = name) ≤ (columns.map Column.name).count name := by
  induction columns generalizing cells with
  | nil => simp
  | cons column rest ih =>
      cases cells with
      | nil => simp
      | cons cell cells =>
          have behind := ih cells
          rw [List.zipWith_cons_cons, List.countP_cons, List.map_cons, List.count_cons]
          simp only [decide_eq_true_eq, beq_iff_eq]
          omega

/-- The decoded record holds the cell that is looked up, if only one column has the name. -/
theorem lastMember?_of_once (once : table.columnNames.count name = 1) :
    (record table.columns cells).lastMember? name =
      (table.columnIndex? name).bind fun index => (cells[index]?).map Cell.toJson := by
  rw [record, Json.lastMember?, find?_reverse, find?_record, columnIndex?]
  exact Nat.le_trans (countP_members table.columns cells) (Nat.le_of_eq once)

theorem length_of_mem_labelled (parsed : ofDelimited categorical bytes = .ok table)
    (member : cells ∈ table.labelled.rows) : cells.length = table.labelled.columns.length := by
  obtain ⟨own, inside, rfl⟩ := List.mem_map.mp member
  simp [labelled, columns_length_of_ofDelimited parsed own inside]

theorem member_record (parsed : ofDelimited categorical bytes = .ok table)
    (once : table.columnNames.count name = 1) (member : cells ∈ table.labelled.rows) :
    ((record table.labelled.columns cells).lastMember? name).bind Browser.Value.ofJson? =
      some (table.labelled.cellOf cells name).value := by
  have single : table.labelled.columnNames.count name = 1 := by
    rw [columnNames_labelled]
    exact once
  have known : (table.labelled.columnIndex? name).isSome = true := by
    obtain ⟨column, inside, own⟩ :=
      List.mem_map.mp (List.count_pos_iff.mp (Nat.lt_of_lt_of_eq Nat.zero_lt_one once.symm))
    rw [columnIndex?_labelled, columnIndex?, List.findIdx?_isSome, List.any_eq_true]
    exact ⟨column, inside, decide_eq_true own⟩
  obtain ⟨index, position⟩ := Option.isSome_iff_exists.mp known
  have within : index < cells.length := by
    have own := (List.getElem?_eq_some_iff.mp (columnIndex?_spec position)).1
    simpa [columnNames, length_of_mem_labelled parsed member] using own
  rw [lastMember?_of_once single, cellOf, position]
  simp [within, Cell.ofJson?_toJson]

theorem member_record_of_eq (once : table.columnNames.count name = 1) {cell : Cell}
    (own : table.cellOf cells name = cell) (present : cell ≠ .null) :
    ((record table.columns cells).lastMember? name).bind Browser.Value.ofJson? =
      some cell.value := by
  rw [lastMember?_of_once once]
  unfold cellOf at own
  cases found : (table.columnIndex? name).bind fun index => cells[index]? with
  | none =>
      rw [found] at own
      exact absurd own.symm present
  | some stored =>
      obtain ⟨index, position, inside⟩ := Option.bind_eq_some_iff.mp found
      rw [found] at own
      obtain rfl : stored = cell := own
      rw [position, Option.bind_some, inside]
      exact Cell.ofJson?_toJson stored

end Table

end LinkedViews
