import LinkedViews.Proofs.Number.Successor
import LinkedViews.Proofs.Preview.Domain
import LinkedViews.Proofs.Table.Labelled
import LinkedViews.Proofs.Table.Typing

/-!
The bounds of a chart and the keys of its rows. A cell's key is less than that of the next cell,
although the next cell can be of another type, so the upper bound lies above every row.
-/

namespace LinkedViews

namespace Cell

variable {cell : Cell}

/-- Whether a cell is of a magnitude that adding one changes. Reals without a finite value are
written as null and count as zero. -/
def IsModerate : Cell → Prop
  | integer value | timestamp value => value.toInt.natAbs < 2 ^ 53
  | real value => value.isFinite = true → value.units < 2 ^ 53 * Binary64.unitsPerOne
  | _ => True

instance : DecidablePred IsModerate
  | integer value | timestamp value => inferInstanceAs (Decidable (value.toInt.natAbs < 2 ^ 53))
  | real value => inferInstanceAs
      (Decidable (value.isFinite = true → value.units < 2 ^ 53 * Binary64.unitsPerOne))
  | null | boolean _ | text _ | category _ => isTrue trivial

theorem toInt_nextInteger {value : Int64} (small : value.toInt.natAbs < 2 ^ 53) :
    (nextInteger value).toInt = value.toInt + 1 := by
  have below : value ≠ Int64.maxValue := by
    rintro rfl
    exact absurd small (by decide)
  rw [nextInteger, if_neg below, Int64.toInt_add, Int64.toInt_one]
  exact Int.bmod_eq_of_le (by omega) (by omega)

theorem toInt_nextCode (code : UInt32) :
    (Int64.ofInt code.toNat + 1).toInt = (code.toNat : Int) + 1 := by
  have small : code.toNat < 2 ^ 32 := code.toNat_lt
  have size : Int64.size = 2 ^ 64 := rfl
  have own : (Int64.ofInt code.toNat).toInt = code.toNat := by
    rw [Int64.toInt_ofInt, Int.bmod_eq_of_le (by omega) (by omega)]
  rw [Int64.toInt_add, own, Int64.toInt_one]
  exact Int.bmod_eq_of_le (by omega) (by omega)

/-- The number of a cell is less than the number of the next cell, if the cell is no text. -/
theorem rank_toNumber_next (moderate : cell.IsModerate) (plain : ∀ s, cell ≠ .text s) :
    cell.toNumber.rank < cell.next.toNumber.rank := by
  have unit : Binary64.zero.rank < (Binary64.ofInt 1).rank := by decide +kernel
  cases cell with
  | null => exact unit
  | integer value | timestamp value =>
      rw [next, toNumber, toNumber, toInt_nextInteger moderate]
      exact Binary64.rank_ofInt_lt moderate
  | real value =>
      cases finite : value.isFinite with
      | true =>
          have small := moderate finite
          simp only [next, toNumber, finite, if_true, Binary64.isFinite_add_one finite small]
          exact Binary64.rank_lt_add_one finite small
      | false =>
          simp only [next, toNumber, finite, Bool.false_eq_true, if_false]
          exact unit
  | boolean value => cases value <;> decide +kernel
  | text value => exact absurd rfl (plain value)
  | category code =>
      have small : code.toNat < 2 ^ 32 := code.toNat_lt
      rw [next, toNumber, toNumber, toInt_nextCode]
      exact Binary64.rank_ofInt_lt (by omega)

end Cell

namespace Key

variable {cell : Cell}

theorem compare_numbers {x y : Binary64} (less : x.rank < y.rank) :
    (number x).compare (number y) = .lt := compare_lt_iff_lt.mpr less

/-- A text comes before all that continue it. -/
theorem compare_text_append {s t : String} (more : t ≠ "") :
    (text s).compare (text (s ++ t)) = .lt := by
  obtain ⟨c, rest, shape⟩ := List.exists_cons_of_ne_nil (mt String.toList_eq_nil_iff.mp more)
  have points : codePoints (s ++ t) = codePoints s ++ codePoints t := by
    rw [codePoints, String.toList_append, List.map_append]
    rfl
  have start := Lexicographic.compare_append_left (codePoints s) [] (codePoints t)
  rw [List.append_nil] at start
  rw [compare, points, start, codePoints, shape, List.map_cons]
  rfl

/-- Numbers are in the order of the cells, booleans come before all integers, and a text before
what continues it. -/
theorem compare_ofCell_next (moderate : cell.IsModerate) :
    (ofCell cell).compare (ofCell cell.next) = .lt := by
  cases cell with
  | boolean value => rfl
  | text value => exact compare_text_append (by decide)
  | real value =>
      -- The next cell is a real or an integer, but its key is its number either way.
      have less := Cell.rank_toNumber_next moderate (by rintro _ ⟨⟩)
      have number : ofCell (Cell.next (.real value)) =
          number (Cell.next (.real value)).toNumber := by
        rw [Cell.next]
        split <;> rfl
      rw [number]
      exact compare_numbers less
  | _ => exact compare_numbers (Cell.rank_toNumber_next moderate (by rintro _ ⟨⟩))

end Key

namespace Table

variable {categorical : List String} {bytes : List UInt8} {table : Table} {field : String}
  {index : Nat} {column : Column}

/-- A column that is not one of texts holds no text. -/
theorem cellOf_ne_text (parsed : ofDelimited categorical bytes = .ok table)
    (found : table.labelled.columnIndex? field = some index)
    (at_ : table.labelled.columns[index]? = some column) (kind : column.kind ≠ .text)
    {row : List Cell} (member : row ∈ table.labelled.rows) (s : String) :
    table.labelled.cellOf row field ≠ .text s := by
  obtain ⟨records, _, whole, even, _⟩ := read_of_ofDelimited parsed
  have typed : (ofRecords categorical table.columnNames records).WellTyped categorical records :=
    wellTyped_ofRecords even
  rw [← whole] at typed
  rw [columnIndex?_labelled] at found
  rw [labelled, List.getElem?_map] at at_
  obtain ⟨own, there, rfl⟩ := Option.map_eq_some_iff.mp at_
  obtain ⟨cells, inside, rfl⟩ := List.mem_map.mp member
  obtain ⟨place, held⟩ := List.mem_iff_getElem?.mp inside
  obtain ⟨_, text, cell, _, _, stored, stores⟩ := typed.stores place index cells own held there
  have plain (labels : List String) : own.kind ≠ .categorical labels := by
    intro coded
    exact kind (by rw [Column.labelled, coded])
  have value : table.cellOf cells field = cell := by
    rw [cellOf, found, Option.bind_some, stored, Option.getD_some]
  rw [cellOf_labelled found there, value, ColumnKind.labelCell_eq_self plain]
  rintro rfl
  obtain rfl | shown := em (text = "")
  · have null := stores.1.mpr rfl
    contradiction
  · have holds := (stores.2 shown).2
    rw [labelled_eq_self plain] at kind
    cases own with
    | mk name own => cases own <;> first | exact kind rfl | exact holds

end Table

namespace Domain

variable {projection : Projection} {table : Table} {field : String} {row record : List Cell}
  {bounds : Domain}

theorem key_congr (single : projection = .raw field ∨ projection = .numeric field)
    (same : table.cellOf record field = table.cellOf row field) :
    projection.key table record = projection.key table row := by
  obtain rfl | rfl := single
  · exact congrArg Key.ofCell same
  · exact congrArg (fun cell => Key.number cell.toNumber) same

/-- A record that holds the next cell after that of a row is above the row. -/
theorem compare_key_next (single : projection = .raw field ∨ projection = .numeric field)
    (moderate : (table.cellOf row field).IsModerate)
    (plain : projection = .numeric field → ∀ s, table.cellOf row field ≠ .text s)
    (held : table.cellOf record field = (table.cellOf row field).next) :
    (projection.key table row).compare (projection.key table record) = .lt := by
  obtain rfl | rfl := single
  · rw [Projection.key, Projection.key, held]
    exact Key.compare_ofCell_next moderate
  · rw [Projection.key, Projection.key, held]
    exact Key.compare_numbers (Cell.rank_toNumber_next moderate (plain rfl))

/-- Bounds between which the keys of all rows lie, the upper bound itself being above them. -/
structure Brackets (projection : Projection) (field : String) (table : Table) (bounds : Domain) :
    Prop where
  lower : ∃ row, IsFirstLeast (projection.key table) table.rows row ∧
    bounds.lower = table.cellOf row field
  upper : ∃ row, IsLastGreatest (projection.key table) table.rows row ∧
    bounds.upper = (table.cellOf row field).next
  least : ∀ record, table.cellOf record field = bounds.lower → ∀ row ∈ table.rows,
    ((projection.key table record).compare (projection.key table row)).isLE = true
  above : ∀ record, table.cellOf record field = bounds.upper → ∀ row ∈ table.rows,
    (projection.key table row).compare (projection.key table record) = .lt
  /-- There are records that hold the upper bound, although no row does. -/
  held : ∃ record, record.length = table.columns.length ∧ table.cellOf record field = bounds.upper

theorem brackets (single : projection = .raw field ∨ projection = .numeric field)
    (known : table.hasColumn field = true) (filled : table.rows ≠ [])
    (moderate : ∀ row ∈ table.rows, (table.cellOf row field).IsModerate)
    (plain : projection = .numeric field → ∀ row ∈ table.rows, ∀ s,
      table.cellOf row field ≠ .text s) :
    ∃ bounds, ofTable? projection field table = some bounds ∧
      Brackets projection field table bounds := by
  obtain ⟨bounds, low, high, made, first, last, lower, upper⟩ :=
    exists_ofTable? projection field filled
  refine ⟨bounds, made, ⟨low, first, lower⟩, ⟨high, last, upper⟩, ?_, ?_, ?_⟩
  · intro record holds row member
    rw [key_congr single (holds.trans lower)]
    exact first.spec.2 row member
  · intro record holds row member
    obtain ⟨inside, greatest⟩ := last.spec
    have next := compare_key_next single (moderate high inside)
      (fun numeric => plain numeric high inside) (holds.trans upper)
    exact Std.TransCmp.lt_of_isLE_of_lt (greatest row member) next
  · obtain ⟨index, found⟩ := Option.isSome_iff_exists.mp known
    have bound : index < table.columns.length := (List.findIdx?_eq_some_iff_getElem.mp found).1
    refine ⟨List.replicate table.columns.length bounds.upper, List.length_replicate, ?_⟩
    rw [Table.cellOf, found, Option.bind_some, List.getElem?_replicate_of_lt bound,
      Option.getD_some]

/-- The bounds of a table that was read from text lie around its rows, the upper bound above all of
them, for the value of a field and for its number where the column is not one of texts. The cells of
the field have to be of magnitudes that adding one changes. -/
theorem ofTable?_brackets {categorical : List String} {bytes : List UInt8} {index : Nat}
    {column : Column} (parsed : Table.ofDelimited categorical bytes = .ok table)
    (moderate : ∀ row ∈ table.labelled.rows, (table.labelled.cellOf row field).IsModerate)
    (found : table.labelled.columnIndex? field = some index)
    (at_ : table.labelled.columns[index]? = some column)
    (single : projection = .raw field ∨ projection = .numeric field ∧ column.kind ≠ .text) :
    (ofTable? projection field table.labelled = none ↔ table.labelled.rows = []) ∧
      (table.labelled.rows ≠ [] → ∃ bounds, ofTable? projection field table.labelled = some bounds ∧
        Brackets projection field table.labelled bounds) := by
  refine ⟨ofTable?_eq_none projection field, fun filled => ?_⟩
  have known : table.labelled.hasColumn field = true := by
    rw [Table.hasColumn, found]
    rfl
  refine brackets (single.imp_right And.left) known filled moderate fun numeric row member => ?_
  have kind : column.kind ≠ .text := by
    obtain raw | ⟨_, kind⟩ := single
    · rw [raw] at numeric
      contradiction
    · exact kind
  exact Table.cellOf_ne_text parsed found at_ kind member

def readings : Table :=
  ⟨[⟨"a", .real⟩, ⟨"b", .integer⟩],
    [[.real (.neg .one), .integer 1], [.real (.infinity false), .integer 2], [.null, .integer 3]]⟩

/-- An infinite real and a null both count as zero, and the last of them is the greatest row. -/
theorem ofTable?_brackets_null :
    Brackets (.numeric "a") "a" readings.labelled ⟨.real (.neg .one), .integer 1⟩ := by
  have parsed : Table.ofDelimited [] (Text.Utf8.encode "a,b\n-1.0,1\ninf,2\n,3\n".toList) =
      .ok readings := Table.eq_ok_of_toOption (by decide +kernel)
  have found : readings.labelled.columnIndex? "a" = some 0 := by decide
  have at_ : readings.labelled.columns[0]? = some ⟨"a", .real⟩ := rfl
  have moderate : ∀ row ∈ readings.labelled.rows,
      (readings.labelled.cellOf row "a").IsModerate := by decide +kernel
  have single : Projection.numeric "a" = .raw "a" ∨
      Projection.numeric "a" = .numeric "a" ∧ ColumnKind.real ≠ .text := by decide
  obtain ⟨bounds, made, around⟩ :=
    (ofTable?_brackets parsed moderate found at_ single).2 (by decide)
  have own : ofTable? (.numeric "a") "a" readings.labelled =
      some ⟨.real (.neg .one), .integer 1⟩ := by decide +kernel
  rw [own] at made
  exact Option.some.inj made ▸ around

end Domain

end LinkedViews
