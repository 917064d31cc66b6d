import LinkedViews.Proofs.Table.RoundTrip
import LinkedViews.Table.Records

/-!
Which cell stands under a name in the record of a row, once the record is decoded as JSON. A name
that is repeated in an object is bound to its last member, while a table looks a name up from the
front; so the two agree on a name if and only if its first and its last column hold cells that are
written alike.
-/

namespace LinkedViews

variable {name : String} {columns : List Column} {cells : List Cell}

/-- The value under a name in an object that is decoded as JSON: the last member of that name. A
member named `__proto__` is one like any other here, while in an object literal of a script it would
set the prototype. -/
def Json.lastMember? (name : String) : Json → Option Json
  | .object members => (members.reverse.find? fun member => member.1 = name).map Prod.snd
  | _ => none

namespace Table

variable {table : Table} {categorical : List String} {bytes : List UInt8} {row : Nat}

def lastColumnIndex? (table : Table) (name : String) : Option Nat :=
  (table.columns.reverse.findIdx? fun column => column.name = name).map
    fun index => table.columns.length - 1 - index

def lastCell (table : Table) (row : Nat) (name : String) : Cell :=
  ((table.rows[row]?).bind fun cells =>
    (table.lastColumnIndex? name).bind fun index => cells[index]?).getD .null

/-! ## Columns of a name -/

theorem name_labelled (column : Column) : column.labelled.name = column.name := by
  cases column with
  | mk name kind => cases kind <;> rfl

theorem columnIndex?_labelled : table.labelled.columnIndex? name = table.columnIndex? name := by
  simp [columnIndex?, labelled, List.findIdx?_map, Function.comp_def, name_labelled]

theorem columnNames_labelled : table.labelled.columnNames = table.columnNames := by
  simp [columnNames, labelled, Function.comp_def, name_labelled]

theorem length_columnNames (table : Table) : table.columnNames.length = table.columns.length :=
  List.length_map _

theorem columnIndex?_spec {index : Nat} (found : table.columnIndex? name = some index) :
    table.columnNames[index]? = some name := by
  obtain ⟨bound, own, _⟩ := List.findIdx?_eq_some_iff_getElem.mp found
  simp [columnNames, bound, of_decide_eq_true own]

theorem lastColumnIndex?_spec {index : Nat} (found : table.lastColumnIndex? name = some index) :
    table.columnNames[index]? = some name := by
  obtain ⟨back, position, rfl⟩ := Option.map_eq_some_iff.mp found
  obtain ⟨bound, own, _⟩ := List.findIdx?_eq_some_iff_getElem.mp position
  rw [List.length_reverse] at bound
  have front : table.columns.length - 1 - back < table.columns.length := by omega
  rw [List.getElem_reverse, decide_eq_true_eq] at own
  simp [columnNames, front, own]

theorem isSome_lastColumnIndex? :
    (table.lastColumnIndex? name).isSome = table.hasColumn name := by
  simp [lastColumnIndex?, hasColumn, columnIndex?, List.findIdx?_isSome]

theorem index_unique {names : List String} {i j : Nat} (once : names.count name ≤ 1)
    (one : names[i]? = some name) (other : names[j]? = some name) : i = j := by
  induction names generalizing i j with
  | nil => simp at one
  | cons head rest ih =>
      have later {k : Nat} (here : rest[k]? = some name) : 0 < rest.count name :=
        List.count_pos_iff.mpr (List.mem_of_getElem? here)
      rw [List.count_cons] at once
      match i, j with
      | 0, 0 => rfl
      | 0, k + 1 =>
          obtain rfl : head = name := by simpa using one
          have positive := later (by simpa using other)
          simp at once
          omega
      | k + 1, 0 =>
          obtain rfl : head = name := by simpa using other
          have positive := later (by simpa using one)
          simp at once
          omega
      | i + 1, j + 1 =>
          have rest := ih (by omega) (by simpa using one) (by simpa using other)
          omega

/-- A name that only one column has is looked up alike from both ends. -/
theorem lastColumnIndex?_eq (once : table.columnNames.count name ≤ 1) :
    table.lastColumnIndex? name = table.columnIndex? name := by
  have both : (table.lastColumnIndex? name).isSome = table.hasColumn name := isSome_lastColumnIndex?
  rw [hasColumn] at both
  cases last : table.lastColumnIndex? name with
  | none => exact (Option.isNone_iff_eq_none.mp (by simpa [last] using both)).symm
  | some index =>
      obtain ⟨first, position⟩ := Option.isSome_iff_exists.mp (both.symm.trans (by simp [last]))
      rw [position, index_unique once (lastColumnIndex?_spec last) (columnIndex?_spec position)]

/-! ## Members of a record -/

theorem find?_record (columns : List Column) (cells : List Cell) :
    ((List.zipWith (fun column cell => (column.name, cell.toJson)) columns cells).find?
        fun member => member.1 = name).map Prod.snd =
      (columns.findIdx? fun column => column.name = name).bind fun index =>
        (cells[index]?).map Cell.toJson := by
  induction columns generalizing cells with
  | nil => rfl
  | cons column rest ih =>
      cases cells with
      | nil => simp
      | cons cell others =>
          by_cases own : column.name = name
          · simp [own, List.findIdx?_cons]
          · simp only [List.zipWith_cons_cons, List.find?_cons, own, decide_false,
              List.findIdx?_cons, Bool.false_eq_true, if_false, ih others]
            cases rest.findIdx? fun column => column.name = name <;> rfl

theorem lastMember?_record (even : cells.length = table.columns.length) :
    (record table.columns cells).lastMember? name =
      (table.lastColumnIndex? name).bind fun index => (cells[index]?).map Cell.toJson := by
  rw [record, Json.lastMember?, List.reverse_zipWith even.symm, find?_record, lastColumnIndex?]
  cases found : table.columns.reverse.findIdx? fun column => column.name = name with
  | none => rfl
  | some index =>
      obtain ⟨bound, _⟩ := List.findIdx?_eq_some_iff_getElem.mp found
      rw [List.length_reverse] at bound
      simp only [Option.map_some, Option.bind_some, List.getElem?_reverse (even ▸ bound), even]

theorem columns_length_of_ofDelimited (parsed : ofDelimited categorical bytes = .ok table) :
    ∀ cells ∈ table.rows, cells.length = table.columns.length := by
  obtain ⟨records, whole, even, _⟩ := ofRecords_of_ofDelimited parsed
  rw [length_columnNames] at even
  rw [whole]
  intro cells member
  obtain ⟨fields, inside, rfl⟩ := List.mem_map.mp member
  simp [ofRecords, even fields inside, length_columnNames]

theorem lastMember?_record_row {cells : List Cell}
    (parsed : ofDelimited categorical bytes = .ok table)
    (stored : table.labelled.rows[row]? = some cells) (known : table.hasColumn name = true) :
    (record table.labelled.columns cells).lastMember? name =
      some (table.labelled.lastCell row name).toJson := by
  have present : table.labelled.hasColumn name = true := by
    rw [hasColumn, columnIndex?_labelled]
    exact known
  have width : cells.length = table.labelled.columns.length := by
    obtain ⟨own, inside, rfl⟩ := List.mem_map.mp (List.mem_of_getElem? stored)
    simp [labelled, columns_length_of_ofDelimited parsed own inside]
  obtain ⟨index, last⟩ := Option.isSome_iff_exists.mp (isSome_lastColumnIndex?.trans present)
  have within : index < cells.length := by
    have own := (List.getElem?_eq_some_iff.mp (lastColumnIndex?_spec last)).1
    simpa [columnNames, width] using own
  rw [lastMember?_record width, lastCell, stored, last]
  simp [within]

theorem lastCell_eq_cell (once : table.columnNames.count name ≤ 1) (inside : row < table.rowCount) :
    table.lastCell row name = table.cell row name := by
  have stored : table.rows[row]? = some table.rows[row] := List.getElem?_eq_getElem inside
  rw [lastCell, cell, lastColumnIndex?_eq once, stored]
  rfl

/-- The value under a name in the decoded record of a row is the cell of the last column of that
name, while the cell that is looked up is the one of the first. They agree wherever these two cells
are written alike, and so for every name that only one column has. -/
theorem lastMember?_records (parsed : ofDelimited categorical bytes = .ok table)
    (inside : row < table.rowCount) (known : table.hasColumn name = true) :
    ∃ objects object, table.recordsText = (Json.array objects).scriptText ∧
      objects.length = table.rowCount ∧ objects[row]? = some object ∧
      object.lastMember? name = some (table.labelled.lastCell row name).toJson ∧
      (object.lastMember? name = some (table.labelled.cell row name).toJson ↔
        (table.labelled.lastCell row name).toJson = (table.labelled.cell row name).toJson) ∧
      (table.columnNames.count name = 1 →
        table.labelled.lastCell row name = table.labelled.cell row name) := by
  have bound : row < table.labelled.rowCount := by
    simpa [labelled, rowCount] using inside
  have stored : table.labelled.rows[row]? = some table.labelled.rows[row] :=
    List.getElem?_eq_getElem bound
  have member := lastMember?_record_row parsed stored known
  refine ⟨table.labelled.rows.map (record table.labelled.columns),
    record table.labelled.columns table.labelled.rows[row], rfl, by simp [labelled, rowCount],
    by simp [stored], member, by rw [member, Option.some.injEq], fun once => ?_⟩
  apply lastCell_eq_cell
  · rw [columnNames_labelled]
    exact Nat.le_of_eq once
  · exact bound

/-- Of two columns of one name the record shows the second and the table the first. -/
theorem lastMember?_ne_cell :
    ∃ table, ofDelimited [] (Text.Utf8.encode "a,a\n1,2\n".toList) = .ok table ∧
      table.labelled.cell 0 "a" = .integer 1 ∧
      ∃ object, table.records = .array [object] ∧
        object.lastMember? "a" = some (Cell.integer 2).toJson ∧
        object.lastMember? "a" ≠ some (table.labelled.cell 0 "a").toJson := by
  refine ⟨⟨[⟨"a", .integer⟩, ⟨"a", .integer⟩], [[.integer 1, .integer 2]]⟩,
    eq_ok_of_toOption (by decide +kernel), rfl, _, rfl, rfl, ?_⟩
  intro same
  have value : Cell.toJson (.integer 2) = Cell.toJson (.integer 1) := Option.some.inj same
  simp [Cell.toJson] at value

theorem lastMember?_records_single :
    ∃ objects object, recordsText ⟨[⟨"a", .integer⟩], [[.integer 1]]⟩ =
        (Json.array objects).scriptText ∧ objects[0]? = some object ∧
      object.lastMember? "a" = some (Cell.integer 1).toJson := by
  have parsed : ofDelimited [] (Text.Utf8.encode "a\n1\n".toList) =
      .ok ⟨[⟨"a", .integer⟩], [[.integer 1]]⟩ := eq_ok_of_toOption (by decide +kernel)
  have inside : 0 < rowCount ⟨[⟨"a", .integer⟩], [[.integer 1]]⟩ := by decide
  have known : hasColumn ⟨[⟨"a", .integer⟩], [[.integer 1]]⟩ "a" = true := by decide
  obtain ⟨objects, object, text, _, held, member, _⟩ := lastMember?_records parsed inside known
  exact ⟨objects, object, text, held, member⟩

end Table

end LinkedViews
