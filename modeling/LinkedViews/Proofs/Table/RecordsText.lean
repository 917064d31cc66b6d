import LinkedViews.Proofs.Json.Grammar
import LinkedViews.Proofs.Table.Records
import LinkedViews.Proofs.Text.ClosingTag

/-!
The text of the records, read by the grammar of JSON. Neither the guard on closing tags nor the
shape of the rows loses anything: each row is read as an object, and each of its cells under a
column as the member of that column.
-/

namespace LinkedViews

/-- The value that the records hold for a cell of this column. -/
def Column.recorded (column : Column) : Cell → Json
  | .null => .null
  | .integer value => .integer value.toInt
  | .real value => if value.isFinite then .real value else .null
  | .boolean value => .boolean value
  | .text value => .text value
  | .timestamp millis => .integer millis.toInt
  | .category code =>
    match column.kind with
    | .categorical labels => (labels[code.toNat]?.map Json.text).getD .null
    | _ => .integer code.toNat

theorem Column.toJson_labelCell (column : Column) (cell : Cell) :
    (column.labelCell cell).toJson = column.recorded cell := by
  cases cell with
  | category code =>
      obtain ⟨name, kind⟩ := column
      cases kind with
      | categorical labels =>
          change ((labels[code.toNat]?.map Cell.text).getD .null).toJson =
            (labels[code.toNat]?.map Json.text).getD .null
          cases labels[code.toNat]? <;> rfl
      | _ => rfl
  | _ => rfl

theorem Cell.written_toJson (cell : Cell) : cell.toJson.written = cell.toJson := by
  cases cell with
  | real value =>
      rw [toJson]
      split
      · rename_i finite
        rw [Json.written, if_pos finite]
      · rfl
  | _ => rfl

namespace Table

variable {columns : List Column} {cells : List Cell} {column : Column} {cell : Cell} {index : Nat}

/-- The members that the records hold for a row. What only one of the row and the columns reaches
has no member. -/
def recordedMembers (columns : List Column) (cells : List Cell) : List (String × Json) :=
  List.zipWith (fun column cell => (column.name, column.recorded cell)) columns cells

theorem record_labelled (columns : List Column) (cells : List Cell) :
    record (columns.map Column.labelled) (List.zipWith Column.labelCell columns cells) =
      .object (recordedMembers columns cells) := by
  rw [record, recordedMembers]
  apply congrArg Json.object
  induction columns generalizing cells with
  | nil => rfl
  | cons column rest ih =>
      cases cells with
      | nil => rfl
      | cons cell others =>
          have member : (column.labelled.name, (column.labelCell cell).toJson) =
              (column.name, column.recorded cell) := by
            rw [name_labelled, Column.toJson_labelCell]
          rw [List.map_cons, List.zipWith_cons_cons, List.zipWith_cons_cons, member, ih others,
            List.zipWith_cons_cons]

theorem records_eq (table : Table) :
    table.records =
      .array (table.rows.map fun cells => .object (recordedMembers table.columns cells)) := by
  have rows : table.labelled.rows.map (record table.labelled.columns) =
      table.rows.map fun cells => .object (recordedMembers table.columns cells) := by
    rw [labelled, List.map_map]
    exact List.map_congr_left fun cells _ => record_labelled table.columns cells
  rw [records, ← rows]

theorem written_recordedMembers (columns : List Column) (cells : List Cell) :
    (recordedMembers columns cells).map Json.writtenMember = recordedMembers columns cells := by
  rw [recordedMembers, List.map_zipWith]
  congr 1
  funext column cell
  rw [Json.writtenMember, ← Column.toJson_labelCell, Cell.written_toJson]

/-- Nothing in the records is without a JSON form of its own. -/
theorem written_records (table : Table) : table.records.written = table.records := by
  rw [records_eq, Json.written, Json.writtenItems_eq, List.map_map]
  apply congrArg Json.array
  apply List.map_congr_left
  intro cells _
  rw [Function.comp_apply, Json.written, Json.writtenMembers_eq, written_recordedMembers]

theorem getElem?_recordedMembers (named : columns[index]? = some column)
    (held : cells[index]? = some cell) :
    (recordedMembers columns cells)[index]? = some (column.name, column.recorded cell) := by
  rw [recordedMembers, List.getElem?_zipWith, named, held]

/-- The text of the records is JSON for one object to each row, whose members are the cells of the
row in order, as far as there are columns for them; and it closes no element of a page. -/
theorem parse?_recordsText (table : Table) :
    ∃ objects : List Json,
      Json.Grammar.parse? table.recordsText.toList = some (.array objects) ∧
      objects.length = table.rowCount ∧
      (∀ (row : Nat) (cells : List Cell), table.rows[row]? = some cells →
        ∃ members : List (String × Json), objects[row]? = some (.object members) ∧
          members.length = min cells.length table.columns.length ∧
          ∀ (index : Nat) (column : Column) (cell : Cell),
            table.columns[index]? = some column → cells[index]? = some cell →
              members[index]? = some (column.name, column.recorded cell)) ∧
      ¬ ['<', '/'] <:+: table.recordsText.toList := by
  have read : Json.Grammar.parse? table.recordsText.toList = some table.records := by
    rw [recordsText, Json.Grammar.parse?_scriptText, written_records]
  refine ⟨_, read.trans (congrArg some (records_eq table)), List.length_map _, ?_, ?_⟩
  · intro row cells stored
    refine ⟨recordedMembers table.columns cells, ?_, ?_, ?_⟩
    · rw [List.getElem?_map, stored, Option.map_some]
    · rw [recordedMembers, List.length_zipWith, Nat.min_comm]
    · intro index column cell
      exact getElem?_recordedMembers
  · rw [recordsText, Json.scriptText, String.toList_ofList]
    exact Text.not_infix_guardTags _

end Table

end LinkedViews
