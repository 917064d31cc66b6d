import LinkedViews.Proofs.Table.RecordsText

/-!
Tables that were read from text are rectangular and typed. The kind of a column is the first that
reads all its texts, so each text is read by the kind of its own column and gives a cell of that
kind; which kind it is depends on the texts alone and not on their order.
-/

namespace LinkedViews

namespace ColumnKind

variable {kind other : ColumnKind} {texts rest categorical : List String} {text name : String}
  {cell : Cell}

/-- Whether a cell is of the constructor that belongs to a kind. A code is the place of a label. -/
def Holds : ColumnKind → Cell → Prop
  | .integer, .integer _ => True
  | .real, .real _ => True
  | .boolean, .boolean _ => True
  | .timestamp, .timestamp _ => True
  | .text, .text _ => True
  | .categorical labels, .category code => code.toNat < labels.length
  | _, _ => False

/-- Whether a kind reads every text of a column that is not empty, of which there has to be one. -/
def Accepts (kind : ColumnKind) (texts : List String) : Prop :=
  (∃ text ∈ texts, text ≠ "") ∧
    ∀ text ∈ texts, text ≠ "" → ∃ cell, kind.readCell? text = some cell

/-- The kind that the texts of a column have: the first to accept them, or else text. -/
inductive Typed (texts : List String) : ColumnKind → Prop where
  | integer (reads : integer.Accepts texts) : Typed texts .integer
  | real (noInteger : ¬ integer.Accepts texts) (reads : real.Accepts texts) : Typed texts .real
  | boolean (noInteger : ¬ integer.Accepts texts) (noReal : ¬ real.Accepts texts)
      (reads : boolean.Accepts texts) : Typed texts .boolean
  | timestamp (noInteger : ¬ integer.Accepts texts) (noReal : ¬ real.Accepts texts)
      (noBoolean : ¬ boolean.Accepts texts) (reads : timestamp.Accepts texts) :
      Typed texts .timestamp
  | text (noInteger : ¬ integer.Accepts texts) (noReal : ¬ real.Accepts texts)
      (noBoolean : ¬ boolean.Accepts texts) (noTimestamp : ¬ timestamp.Accepts texts) :
      Typed texts .text

/-! ## The kind that is found -/

theorem accepts_iff :
    kind.Accepts texts ↔ present texts ≠ [] ∧ kind.reads (present texts) = true := by
  have shown : present texts ≠ [] ↔ ∃ text ∈ texts, text ≠ "" := by
    simp [List.eq_nil_iff_forall_not_mem, mem_present]
  rw [shown, reads, List.all_eq_true]
  simp only [mem_present, Option.isSome_iff_exists, and_imp]
  rfl

theorem typed_infer (texts : List String) : Typed texts (infer texts) := by
  by_cases blank : present texts = []
  · have none (kind : ColumnKind) : ¬ kind.Accepts texts := fun accepts =>
      (accepts_iff.mp accepts).1 blank
    rw [infer, if_pos blank]
    exact .text (none _) (none _) (none _) (none _)
  · have reads (kind : ColumnKind) : kind.reads (present texts) = true ↔ kind.Accepts texts :=
      ((and_iff_right blank).symm.trans accepts_iff.symm)
    have misses (kind : ColumnKind) (no : ¬ kind.Accepts texts) :
        kind.reads (present texts) = false := Bool.eq_false_iff.mpr (mt (reads kind).mp no)
    by_cases integers : integer.Accepts texts
    · have found : infer texts = .integer :=
        infer_of_find blank (by simp [inferred, (reads _).mpr integers])
      exact found ▸ .integer integers
    by_cases reals : real.Accepts texts
    · have found : infer texts = .real :=
        infer_of_find blank (by simp [inferred, misses _ integers, (reads _).mpr reals])
      exact found ▸ .real integers reals
    by_cases booleans : boolean.Accepts texts
    · have found : infer texts = .boolean := infer_of_find blank (by
        simp [inferred, misses _ integers, misses _ reals, (reads _).mpr booleans])
      exact found ▸ .boolean integers reals booleans
    by_cases stamps : timestamp.Accepts texts
    · have found : infer texts = .timestamp := infer_of_find blank (by
        simp [inferred, misses _ integers, misses _ reals, misses _ booleans,
          (reads _).mpr stamps])
      exact found ▸ .timestamp integers reals booleans stamps
    · have found : infer texts = .text := by
        simp [infer, blank, inferred, misses _ integers, misses _ reals, misses _ booleans,
          misses _ stamps]
      exact found ▸ .text integers reals booleans stamps

theorem Typed.unique (one : Typed texts kind) (two : Typed texts other) : kind = other := by
  cases one <;> cases two <;> first | rfl | contradiction

theorem Typed.infer_eq (typed : Typed texts kind) : infer texts = kind :=
  (typed_infer texts).unique typed

theorem Accepts.of_mem_iff (same : ∀ text, text ∈ texts ↔ text ∈ rest)
    (accepts : kind.Accepts texts) : kind.Accepts rest := by
  obtain ⟨⟨text, member, shown⟩, reads⟩ := accepts
  exact ⟨⟨text, (same text).mp member, shown⟩, fun other inside =>
    reads other ((same other).mpr inside)⟩

/-- Only which texts there are decides the kind, not their order or how often each occurs. -/
theorem Typed.of_mem_iff (same : ∀ text, text ∈ texts ↔ text ∈ rest)
    (typed : Typed texts kind) : Typed rest kind := by
  have there {kind : ColumnKind} (accepts : kind.Accepts texts) : kind.Accepts rest :=
    accepts.of_mem_iff same
  have back {kind : ColumnKind} (no : ¬ kind.Accepts texts) : ¬ kind.Accepts rest :=
    mt (fun accepts => accepts.of_mem_iff fun text => (same text).symm) no
  cases typed with
  | integer reads => exact .integer (there reads)
  | real noInteger reads => exact .real (back noInteger) (there reads)
  | boolean noInteger noReal reads => exact .boolean (back noInteger) (back noReal) (there reads)
  | timestamp noInteger noReal noBoolean reads =>
      exact .timestamp (back noInteger) (back noReal) (back noBoolean) (there reads)
  | text noInteger noReal noBoolean noTimestamp =>
      exact .text (back noInteger) (back noReal) (back noBoolean) (back noTimestamp)

theorem infer_perm (same : texts.Perm rest) : infer texts = infer rest :=
  ((typed_infer rest).of_mem_iff fun _ => same.mem_iff.symm).infer_eq

/-! ## Cells -/

theorem Typed.readCell? (typed : Typed texts kind) (member : text ∈ texts) (shown : text ≠ "") :
    ∃ cell, kind.readCell? text = some cell := by
  cases typed with
  | integer reads => exact reads.2 text member shown
  | real _ reads => exact reads.2 text member shown
  | boolean _ _ reads => exact reads.2 text member shown
  | timestamp _ _ _ reads => exact reads.2 text member shown
  | text => exact ⟨.text text, rfl⟩

/-- The kind of a column reads each of its texts, so no cell falls back to the text itself. -/
theorem readCell?_ofTexts (categorical : List String) (name : String) (member : text ∈ texts)
    (shown : text ≠ "") : ∃ cell, (ofTexts categorical name texts).readCell? text = some cell := by
  by_cases asked : name ∈ categorical
  · rw [ofTexts, if_pos asked]
    have label := mem_labelsOf.mpr ⟨member, shown⟩
    obtain ⟨code, position⟩ := Option.ne_none_iff_exists'.mp
      (mt List.idxOf?_eq_none_iff.mp (not_not_intro label))
    exact ⟨.category (UInt32.ofNat code), by simp [ColumnKind.readCell?, position]⟩
  · rw [ofTexts, if_neg asked]
    exact (typed_infer texts).readCell? member shown

theorem holds_of_readCell? (read : kind.readCell? text = some cell) : kind.Holds cell := by
  cases kind with
  | categorical labels =>
      obtain ⟨code, position, rfl⟩ := Option.map_eq_some_iff.mp read
      obtain ⟨bound, _⟩ := List.idxOf?_eq_some_iff.mp position
      exact Nat.lt_of_le_of_lt (Nat.mod_le _ _) bound
  | text =>
      obtain rfl : .text text = cell := Option.some.inj read
      trivial
  | _ =>
      obtain ⟨_, _, rfl⟩ := Option.map_eq_some_iff.mp read
      trivial

theorem not_holds_null (kind : ColumnKind) : ¬ kind.Holds .null := by
  cases kind <;> exact not_false

theorem cell_of_readCell? (shown : text ≠ "") (read : kind.readCell? text = some cell) :
    kind.cell text = cell := by
  rw [ColumnKind.cell, if_neg shown, read, Option.getD_some]

end ColumnKind

/-- What a cell under a column is to the text that it was read from. -/
def Column.Stores (column : Column) (text : String) (cell : Cell) : Prop :=
  (cell = .null ↔ text = "") ∧
    (text ≠ "" → column.kind.readCell? text = some cell ∧ column.kind.Holds cell)

namespace Table

open Delimited

variable {categorical names : List String} {records other : List (List String)} {table : Table}
  {column : Column} {bytes : List UInt8} {index : Nat}

/-- A table that fits the records it was read from. -/
structure WellTyped (categorical : List String) (records : List (List String)) (table : Table) :
    Prop where
  rowCount : table.rowCount = records.length
  width : ∀ cells ∈ table.rows, cells.length = table.columns.length
  /-- The cell of each row under each column is read from the field at the same place. -/
  stores : ∀ (row index : Nat) (cells : List Cell) (column : Column),
    table.rows[row]? = some cells → table.columns[index]? = some column →
      ∃ fields text cell, records[row]? = some fields ∧ fields[index]? = some text ∧
        cells[index]? = some cell ∧ column.Stores text cell
  inferred : ∀ (index : Nat) (column : Column), table.columns[index]? = some column →
    column.name ∉ categorical → ColumnKind.Typed (columnTexts records index) column.kind
  encoded : ∀ column ∈ table.columns, column.name ∈ categorical →
    ∃ labels, column.kind = .categorical labels

theorem stores_cell
    (at_ : (ofRecords categorical names records).columns[index]? = some column) {text : String}
    (member : text ∈ columnTexts records index) : column.Stores text (column.kind.cell text) := by
  by_cases blank : text = ""
  · rw [blank, ColumnKind.cell_empty]
    exact ⟨by simp, fun shown => absurd rfl shown⟩
  · obtain ⟨cell, read⟩ := ColumnKind.readCell?_ofTexts categorical column.name member blank
    rw [← (eq_of_getElem?_columns at_).2] at read
    have holds := ColumnKind.holds_of_readCell? read
    rw [ColumnKind.cell_of_readCell? blank read]
    refine ⟨iff_of_false ?_ blank, fun _ => ⟨read, holds⟩⟩
    rintro rfl
    exact ColumnKind.not_holds_null _ holds

theorem wellTyped_ofRecords (even : ∀ fields ∈ records, fields.length = names.length) :
    (ofRecords categorical names records).WellTyped categorical records where
  rowCount := by simp [Table.rowCount, ofRecords]
  width := by
    intro cells member
    obtain ⟨fields, inside, rfl⟩ := List.mem_map.mp member
    simp [ofRecords, even fields inside]
  stores := by
    intro row index cells column held at_
    obtain ⟨fields, own, rfl⟩ := Option.map_eq_some_iff.mp ((List.getElem?_map ..).symm.trans held)
    have kind := getElem?_kindsOf_of_columns at_
    have long := even fields (List.mem_of_getElem? own)
    have inside : index < fields.length :=
      long ▸ (List.getElem?_eq_some_iff.mp (eq_of_getElem?_columns at_).1).1
    have text : fields[index]? = some (fields.getD index "") := by simp [inside]
    refine ⟨fields, fields.getD index "", column.kind.cell (fields.getD index ""), own, text,
      getElem?_zipWith_kinds kind (long.trans length_kindsOf.symm), stores_cell at_ ?_⟩
    exact List.mem_map_of_mem (List.mem_of_getElem? own)
  inferred := by
    intro index column at_ free
    rw [(eq_of_getElem?_columns at_).2, ColumnKind.ofTexts, if_neg free]
    exact ColumnKind.typed_infer _
  encoded := by
    intro column member asked
    obtain ⟨index, at_⟩ := List.mem_iff_getElem?.mp member
    exact ⟨_, (eq_of_getElem?_columns at_).2.trans (if_pos asked)⟩

/-- Columns that are not asked for as categorical do not depend on the order of the records. -/
theorem getElem?_columns_perm (same : other.Perm records)
    (at_ : (ofRecords categorical names records).columns[index]? = some column)
    (free : column.name ∉ categorical) :
    (ofRecords categorical names other).columns[index]? = some column := by
  obtain ⟨own, kind⟩ := eq_of_getElem?_columns at_
  have texts : (columnTexts other index).Perm (columnTexts records index) := same.map _
  rw [getElem?_columns, own, Option.map_some, ColumnKind.ofTexts, if_neg free,
    ColumnKind.infer_perm texts]
  rw [ColumnKind.ofTexts, if_neg free] at kind
  rw [← kind]

theorem exists_toDelimited (categorical : List String)
    (even : ∀ fields ∈ records, fields.length = names.length) :
    ∃ text, (ofRecords categorical names records).toDelimited = .ok text := by
  rw [toDelimited_ofRecords, write_eq_lines (length_rewriteRecords categorical even)]
  exact ⟨_, rfl⟩

theorem map_fst_recordedMembers {columns : List Column} {cells : List Cell}
    (even : cells.length = columns.length) :
    (recordedMembers columns cells).map Prod.fst = columns.map Column.name := by
  rw [recordedMembers, List.map_zipWith]
  induction columns generalizing cells with
  | nil => rfl
  | cons column rest ih =>
      obtain ⟨cell, others, rfl⟩ := List.exists_cons_of_length_eq_add_one even
      rw [List.zipWith_cons_cons, List.map_cons, ih (Nat.succ.inj even)]

/-- A table that was read from text has one cell in each row for each column. A cell is null if and
only if its text is empty, and any other cell is of the kind of its column. Columns that are not
asked for as categorical have the first kind that accepts their texts, in whatever order the rows
stand. So such a table can always be written, as text and as records. -/
theorem wellTyped_ofDelimited (parsed : ofDelimited categorical bytes = .ok table) :
    ∃ records, Delimited.read bytes = .ok (table.columnNames, records) ∧
      table.WellTyped categorical records ∧
      (∀ (shuffled : List UInt8) (other : List (List String)),
        Delimited.read shuffled = .ok (table.columnNames, other) → other.Perm records →
          ∃ again : Table, ofDelimited categorical shuffled = .ok again ∧
            again.columnNames = table.columnNames ∧
            ∀ (index : Nat) (column : Column), table.columns[index]? = some column →
              column.name ∉ categorical → again.columns[index]? = some column) ∧
      (∃ text, table.toDelimited = .ok text) ∧
      ∃ objects : List Json, Json.Grammar.parse? table.recordsText.toList = some (.array objects) ∧
        objects.length = table.rowCount ∧
        ∀ object ∈ objects, ∃ members : List (String × Json), object = .object members ∧
          members.map Prod.fst = table.columnNames := by
  obtain ⟨records, read, whole, even, known⟩ := read_of_ofDelimited parsed
  have typed : (ofRecords categorical table.columnNames records).WellTyped categorical records :=
    wellTyped_ofRecords even
  rw [← whole] at typed
  refine ⟨records, read, typed, ?_, ?_, ?_⟩
  · intro shuffled other readOther same
    refine ⟨ofRecords categorical table.columnNames other, ?_, columnNames_ofRecords, ?_⟩
    · simp only [ofDelimited, readOther, known]
    · intro index column at_ free
      rw [whole] at at_
      exact getElem?_columns_perm same at_ free
  · rw [whole]
    exact exists_toDelimited categorical even
  · have text : Json.Grammar.parse? table.recordsText.toList = some table.records := by
      rw [recordsText, Json.Grammar.parse?_scriptText, written_records]
    refine ⟨_, text.trans (congrArg some (records_eq table)), List.length_map _, ?_⟩
    intro object member
    obtain ⟨cells, own, rfl⟩ := List.mem_map.mp member
    exact ⟨_, rfl, map_fst_recordedMembers (typed.width cells own)⟩

theorem wellTyped_ofDelimited_labels :
    ∃ records, Delimited.read (Text.Utf8.encode "a,b\n1,x\n,y\n".toList) =
        .ok (["a", "b"], records) ∧
      WellTyped ["b"] records ⟨[⟨"a", .integer⟩, ⟨"b", .categorical ["x", "y"]⟩],
        [[.integer 1, .category 0], [.null, .category 1]]⟩ := by
  have parsed : ofDelimited ["b"] (Text.Utf8.encode "a,b\n1,x\n,y\n".toList) =
      .ok ⟨[⟨"a", .integer⟩, ⟨"b", .categorical ["x", "y"]⟩],
        [[.integer 1, .category 0], [.null, .category 1]]⟩ := eq_ok_of_toOption (by decide +kernel)
  obtain ⟨records, read, typed, _⟩ := wellTyped_ofDelimited parsed
  exact ⟨records, read, typed⟩

end Table

end LinkedViews
