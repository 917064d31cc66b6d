import LinkedViews.Dashboard.Saving
import LinkedViews.Preview.Chart
import LinkedViews.Proofs.Delimited.RoundTrip
import LinkedViews.Proofs.Table.Labels

/-!
Tables with labels in place of codes. Putting the labels in once is enough, and what is made of a
table is made of this form of it, whatever the lengths of its rows and whichever cells they hold. So
is the part of a table that is written where a short row ends the writing.
-/

namespace LinkedViews

/-- What stands for a cell under a column of a kind once labels are put in: the label of a code,
null for a code without a label, and any other cell itself. -/
inductive ColumnKind.Shows : ColumnKind → Cell → Cell → Prop where
  | label {labels : List String} {code : UInt32} {text : String}
      (known : labels[code.toNat]? = some text) :
      Shows (.categorical labels) (.category code) (.text text)
  | unknown {labels : List String} {code : UInt32} (beyond : labels.length ≤ code.toNat) :
      Shows (.categorical labels) (.category code) .null
  | same {kind : ColumnKind} {cell : Cell}
      (plain : ∀ labels code, kind = .categorical labels → cell ≠ .category code) :
      Shows kind cell cell

namespace Column

theorem shows_labelCell (column : Column) (cell : Cell) :
    column.kind.Shows cell (column.labelCell cell) := by
  obtain ⟨name, kind⟩ := column
  by_cases coded : ∃ labels code, kind = .categorical labels ∧ cell = .category code
  · obtain ⟨labels, code, rfl, rfl⟩ := coded
    change ColumnKind.Shows _ _ ((labels[code.toNat]?.map Cell.text).getD .null)
    cases found : labels[code.toNat]? with
    | some text => exact .label found
    | none => exact .unknown (List.getElem?_eq_none_iff.mp found)
  · have own : labelCell ⟨name, kind⟩ cell = cell := by
      unfold labelCell
      split
      · exact absurd ⟨_, _, ‹_›, rfl⟩ coded
      · rfl
    rw [own]
    exact .same fun labels code kind cell => coded ⟨labels, code, kind, cell⟩

theorem kind_labelled_ne (column : Column) (labels : List String) :
    column.labelled.kind ≠ .categorical labels := by
  obtain ⟨name, kind⟩ := column
  cases kind <;> exact ColumnKind.noConfusion

theorem labelled_labelled (column : Column) : column.labelled.labelled = column.labelled :=
  Table.labelled_eq_self column.kind_labelled_ne

theorem labelCell_labelled (column : Column) (cell : Cell) :
    column.labelled.labelCell cell = cell :=
  ColumnKind.labelCell_eq_self column.kind_labelled_ne

end Column

namespace Table

open Delimited

variable {table : Table} {name : String} {index : Nat} {column : Column} {failure : Failure}

/-! ## Cells -/

theorem zipWith_labelCell_labelled (columns : List Column) (cells : List Cell) :
    List.zipWith Column.labelCell (columns.map Column.labelled)
        (List.zipWith Column.labelCell columns cells) =
      List.zipWith Column.labelCell columns cells := by
  induction columns generalizing cells with
  | nil => rfl
  | cons column rest ih =>
      cases cells with
      | nil => rfl
      | cons cell others =>
          rw [List.zipWith_cons_cons, List.map_cons, List.zipWith_cons_cons,
            Column.labelCell_labelled, ih]

theorem labelled_labelled (table : Table) : table.labelled.labelled = table.labelled := by
  rw [labelled, Table.mk.injEq]
  constructor
  · rw [labelled, List.map_map]
    exact List.map_congr_left fun column _ => column.labelled_labelled
  · rw [labelled, List.map_map]
    exact List.map_congr_left fun cells _ => zipWith_labelCell_labelled table.columns cells

theorem cellOf_labelled (found : table.columnIndex? name = some index)
    (at_ : table.columns[index]? = some column) (cells : List Cell) :
    table.labelled.cellOf (List.zipWith Column.labelCell table.columns cells) name =
      column.labelCell (table.cellOf cells name) := by
  rw [cellOf, columnIndex?_labelled, found, cellOf, found, Option.bind_some, Option.bind_some,
    List.getElem?_zipWith, at_]
  cases cells[index]? with
  | some cell => rfl
  | none => rfl

theorem cell_labelled (found : table.columnIndex? name = some index)
    (at_ : table.columns[index]? = some column) (row : Nat) :
    table.labelled.cell row name = column.labelCell (table.cell row name) := by
  have rows : table.labelled.rows[row]? =
      (table.rows[row]?).map (List.zipWith Column.labelCell table.columns) := List.getElem?_map ..
  rw [cell, cell, rows]
  cases table.rows[row]? with
  | some cells => exact cellOf_labelled found at_ cells
  | none => rfl

theorem cell_of_unknown (missing : table.columnIndex? name = none) (row : Nat) :
    table.cell row name = .null := by
  have none (cells : List Cell) : table.cellOf cells name = .null := by
    rw [cellOf, missing]
    rfl
  rw [cell]
  cases table.rows[row]? with
  | some cells => exact none cells
  | none => rfl

/-! ## Writing -/

/-- The texts of the cells of a row, with labels in place of codes. -/
def rowTexts (table : Table) (cells : List Cell) : List String :=
  (List.zipWith Column.labelCell table.columns cells).map Cell.display

theorem output_eq (table : Table) :
    table.output = write table.columnNames (table.rows.map table.rowTexts) := by
  rw [output, labelled, List.map_map]
  rfl

theorem length_rowTexts (table : Table) (cells : List Cell) :
    (table.rowTexts cells).length = min table.columns.length cells.length := by
  rw [rowTexts, List.length_map, List.length_zipWith]

/-- What a row has beyond the columns is left out, so all rows but the short ones fit the header. -/
theorem length_rowTexts_of_wide {rows : List (List Cell)}
    (wide : ∀ cells ∈ rows, table.columns.length ≤ cells.length) :
    ∀ fields ∈ rows.map table.rowTexts, fields.length = table.columnNames.length := by
  rw [List.forall_mem_map]
  intro cells member
  rw [length_rowTexts, length_columnNames]
  exact Nat.min_eq_left (wide cells member)

theorem output_of_wide (wide : ∀ cells ∈ table.rows, table.columns.length ≤ cells.length) :
    table.output = ⟨lines (table.columnNames :: table.rows.map table.rowTexts), none⟩ := by
  rw [output_eq]
  exact write_eq_lines (length_rowTexts_of_wide wide)

/-- What is written of a table with a short row: the header, the rows before it and the fields it
has. -/
theorem output_of_short {front back : List (List Cell)} {cells : List Cell}
    (shape : table.rows = front ++ cells :: back)
    (wide : ∀ other ∈ front, table.columns.length ≤ other.length)
    (short : cells.length < table.columns.length) :
    table.output =
      ⟨lines (table.columnNames :: front.map table.rowTexts) ++
          openFields ((table.rowTexts cells).map String.toList),
        some (.length none cells.length table.columns.length)⟩ := by
  have length : (table.rowTexts cells).length = cells.length := by
    rw [length_rowTexts, Nat.min_eq_right (Nat.le_of_lt short)]
  have uneven : (table.rowTexts cells).length ≠ table.columnNames.length := by
    rw [length, length_columnNames]
    exact Nat.ne_of_lt short
  rw [output_eq, shape, List.map_append, List.map_cons,
    write_of_uneven (length_rowTexts_of_wide wide) uneven, length, length_columnNames]

/-- The field of a short row stands behind the rows before it, and its quote is not closed. -/
example : output ⟨[⟨"a", .text⟩, ⟨"b", .text⟩], [[.text "x", .text "y,z"], [.text "u,v"]]⟩ =
    ⟨"a,b\nx,\"y,z\"\n\"u,v".toList, some (.length none 1 2)⟩ := by decide

/-- Writing a table fails at the first row that is shorter than the header. -/
theorem toDelimited_eq_error : table.toDelimited = .error failure ↔
    ∃ cells, (table.rows.find? fun cells => cells.length < table.columns.length) = some cells ∧
      failure = .delimited (.length none cells.length table.columns.length) := by
  cases found : table.rows.find? fun cells => cells.length < table.columns.length with
  | none =>
      have wide : ∀ cells ∈ table.rows, table.columns.length ≤ cells.length := by
        simpa using found
      rw [toDelimited, output_of_wide wide]
      exact iff_of_false (by rintro ⟨⟩) (by simp)
  | some cells =>
      obtain ⟨short, front, back, shape, wide⟩ := List.find?_eq_some_iff_append.mp found
      simp only [decide_eq_true_eq, Bool.not_eq_true', decide_eq_false_iff_not, not_lt] at short wide
      rw [toDelimited, output_of_short shape wide short]
      simp [Output.result, eq_comm]

theorem output_labelled (table : Table) : table.labelled.output = table.output := by
  rw [output, output, labelled_labelled, columnNames_labelled]

/-- A table with labels in place of codes stays as it is when labels are put in again, and it is
written, saved and charted as the table itself. The writing fails if and only if a row is shorter
than the header; then the header, the rows before the first such row and the fields it has are
written, and a file that is saved is left with them. A cell that is looked up is the label of its
code, or null for a code without a label, where its column has labels, and else the cell itself. -/
theorem labelled_again (table : Table) :
    table.labelled.labelled = table.labelled ∧
      table.labelled.recordsText = table.recordsText ∧
      table.labelled.output = table.output ∧
      table.labelled.toDelimited = table.toDelimited ∧
      (∀ (m : Type → Type) [Monad m] (access : FileAccess m) (path : String),
        table.labelled.save access path = table.save access path) ∧
      (∀ failure, table.toDelimited = .error failure ↔ ∃ cells,
        (table.rows.find? fun cells => cells.length < table.columns.length) = some cells ∧
          failure = .delimited (.length none cells.length table.columns.length)) ∧
      (∀ front cells back, table.rows = front ++ cells :: back →
        (∀ other ∈ front, table.columns.length ≤ other.length) →
        cells.length < table.columns.length →
        table.output.text = lines (table.columnNames :: front.map table.rowTexts) ++
          openFields ((table.rowTexts cells).map String.toList)) ∧
      (∀ (chart : Chart) (index : IndexName),
        Preview.ofChart chart index table.labelled = Preview.ofChart chart index table) ∧
      ∀ (row : Nat) (name : String),
        (table.columnIndex? name = none →
          table.cell row name = .null ∧ table.labelled.cell row name = .null) ∧
        ∀ (index : Nat) (column : Column), table.columnIndex? name = some index →
          table.columns[index]? = some column →
            column.kind.Shows (table.cell row name) (table.labelled.cell row name) := by
  have written := output_labelled table
  refine ⟨labelled_labelled table, ?_, written, ?_, ?_, fun _ => toDelimited_eq_error, ?_, ?_, ?_⟩
  · rw [recordsText, recordsText, records, records, labelled_labelled]
  · rw [toDelimited, toDelimited, written]
  · intro m _ access path
    rw [save, save, written]
  · intro front cells back shape wide short
    rw [output_of_short shape wide short]
  · intro chart index
    simp only [Preview.ofChart, labelled_labelled]
  · intro row name
    refine ⟨fun missing => ⟨cell_of_unknown missing row, ?_⟩, fun index column found at_ => ?_⟩
    · exact cell_of_unknown (columnIndex?_labelled.trans missing) row
    · rw [cell_labelled found at_]
      exact column.shows_labelCell _

/-- A code beyond the labels, a code under a column of reals, a row too long and one too short. -/
example : labelled ⟨[⟨"g", .categorical ["a"]⟩, ⟨"x", .real⟩],
      [[.category 0, .category 7, .null], [.category 1]]⟩ =
    ⟨[⟨"g", .text⟩, ⟨"x", .real⟩], [[.text "a", .category 7], [.null]]⟩ := rfl

end Table

end LinkedViews
