import LinkedViews.Proofs.Delimited.RoundTrip
import LinkedViews.Proofs.Table.Column

/-!
A table that was read from text, written and read again. Names, rows and lengths are kept, so that
every column can be followed by itself: it gets the texts that its kind writes for its cells.
-/

namespace LinkedViews.Table

open Delimited

variable {categorical names fields : List String} {records : List (List String)}
  {table : Table} {column : Column} {bytes : List UInt8} {index : Nat}

/-- The cells under the column at a position, one for each row. -/
def cellsAt (table : Table) (index : Nat) : List (Option Cell) :=
  table.rows.map fun row => row[index]?

def kindsOf (categorical names : List String) (records : List (List String)) : List ColumnKind :=
  names.mapIdx fun index name => ColumnKind.ofTexts categorical name (columnTexts records index)

/-- The texts that are written for records in columns of the given kinds. -/
def rewriteRecords (kinds : List ColumnKind) (records : List (List String)) : List (List String) :=
  records.map (List.zipWith ColumnKind.rewrite kinds)

/-! ## The table of records -/

@[simp] theorem length_kindsOf : (kindsOf categorical names records).length = names.length := by
  simp [kindsOf]

theorem getElem?_kindsOf :
    (kindsOf categorical names records)[index]? = (names[index]?).map fun name =>
      ColumnKind.ofTexts categorical name (columnTexts records index) := by
  simp [kindsOf]

theorem getElem?_columns :
    (ofRecords categorical names records).columns[index]? = (names[index]?).map fun name =>
      ⟨name, ColumnKind.ofTexts categorical name (columnTexts records index)⟩ := by
  change (List.zipWith Column.mk names (kindsOf categorical names records))[index]? = _
  rw [List.getElem?_zipWith, getElem?_kindsOf]
  cases names[index]? <;> rfl

theorem eq_of_getElem?_columns
    (at_ : (ofRecords categorical names records).columns[index]? = some column) :
    names[index]? = some column.name ∧
      column.kind = ColumnKind.ofTexts categorical column.name (columnTexts records index) := by
  obtain ⟨name, own, rfl⟩ := Option.map_eq_some_iff.mp (getElem?_columns.symm.trans at_)
  exact ⟨own, rfl⟩

theorem columnNames_ofRecords : (ofRecords categorical names records).columnNames = names := by
  apply List.ext_getElem?
  intro index
  rw [columnNames, List.getElem?_map, getElem?_columns]
  cases names[index]? <;> rfl

theorem kinds_ofRecords : (ofRecords categorical names records).columns.map Column.kind =
    kindsOf categorical names records := by
  apply List.ext_getElem?
  intro index
  rw [List.getElem?_map, getElem?_columns, getElem?_kindsOf]
  cases names[index]? <;> rfl

theorem getElem?_kindsOf_of_columns
    (at_ : (ofRecords categorical names records).columns[index]? = some column) :
    (kindsOf categorical names records)[index]? = some column.kind := by
  rw [← kinds_ofRecords, List.getElem?_map, at_]
  rfl

theorem getElem?_zipWith_kinds {value : Type} {f : ColumnKind → String → value}
    {kinds : List ColumnKind} {kind : ColumnKind} (at_ : kinds[index]? = some kind)
    (even : fields.length = kinds.length) :
    (List.zipWith f kinds fields)[index]? = some (f kind (fields.getD index "")) := by
  have bound : index < fields.length := even ▸ (List.getElem?_eq_some_iff.mp at_).1
  rw [List.getElem?_zipWith, at_, List.getElem?_eq_getElem bound]
  simp [bound]

theorem cellsAt_ofRecords (even : ∀ fields ∈ records, fields.length = names.length)
    (at_ : (ofRecords categorical names records).columns[index]? = some column) :
    (ofRecords categorical names records).cellsAt index =
      (columnTexts records index).map fun text => some (column.kind.cell text) := by
  have kind := getElem?_kindsOf_of_columns at_
  change (records.map (List.zipWith ColumnKind.cell (kindsOf categorical names records))).map _ = _
  rw [columnTexts, List.map_map, List.map_map]
  refine List.map_congr_left fun fields member => ?_
  exact getElem?_zipWith_kinds kind (by rw [even fields member, length_kindsOf])

theorem columnTexts_rewriteRecords (even : ∀ fields ∈ records, fields.length = names.length)
    (at_ : (ofRecords categorical names records).columns[index]? = some column) :
    columnTexts (rewriteRecords (kindsOf categorical names records) records) index =
      (columnTexts records index).map column.kind.rewrite := by
  have kind := getElem?_kindsOf_of_columns at_
  rw [columnTexts, columnTexts, rewriteRecords, List.map_map, List.map_map]
  refine List.map_congr_left fun fields member => ?_
  simp only [Function.comp_apply, List.getD_eq_getElem?_getD]
  rw [getElem?_zipWith_kinds kind (by rw [even fields member, length_kindsOf])]
  simp

/-! ## Writing it -/

theorem display_labelCell (columns : List Column) (fields : List String) :
    (List.zipWith Column.labelCell columns
        (List.zipWith ColumnKind.cell (columns.map Column.kind) fields)).map Cell.display =
      List.zipWith ColumnKind.rewrite (columns.map Column.kind) fields := by
  induction columns generalizing fields with
  | nil => rfl
  | cons column rest ih =>
      cases fields with
      | nil => rfl
      | cons text others =>
          simp only [List.map_cons, List.zipWith_cons_cons, ih]
          rfl

theorem toDelimited_ofRecords :
    (ofRecords categorical names records).toDelimited =
      (write names (rewriteRecords (kindsOf categorical names records) records)).result.mapError
        Failure.delimited := by
  have cells : (ofRecords categorical names records).labelled.rows.map (List.map Cell.display) =
      rewriteRecords (kindsOf categorical names records) records := by
    rw [← kinds_ofRecords]
    change ((records.map (List.zipWith ColumnKind.cell (kindsOf categorical names records))).map
      (List.zipWith Column.labelCell _)).map _ = _
    rw [← kinds_ofRecords, List.map_map, List.map_map, rewriteRecords]
    exact List.map_congr_left fun fields _ => display_labelCell _ fields
  rw [toDelimited, output, columnNames_ofRecords, cells]
  cases (write names (rewriteRecords (kindsOf categorical names records) records)).result <;> rfl

theorem length_rewriteRecords (categorical : List String)
    (even : ∀ fields ∈ records, fields.length = names.length) :
    ∀ fields ∈ rewriteRecords (kindsOf categorical names records) records,
      fields.length = names.length := by
  intro fields member
  obtain ⟨own, inside, rfl⟩ := List.mem_map.mp member
  simp [even own inside]

/-! ## Reading it again -/

theorem ofRecords_of_read (read : Delimited.read bytes = .ok (names, records))
    (parsed : ofDelimited categorical bytes = .ok table) :
    table = ofRecords categorical names records ∧
      categorical.find? (fun name => name ∉ names) = none := by
  unfold ofDelimited at parsed
  cases missing : categorical.find? fun name => name ∉ names with
  | some name => simp only [read, missing, reduceCtorEq] at parsed
  | none =>
      simp only [read, missing, Except.ok.injEq] at parsed
      exact ⟨parsed.symm, rfl⟩

theorem read_of_ofDelimited (parsed : ofDelimited categorical bytes = .ok table) :
    ∃ records, Delimited.read bytes = .ok (table.columnNames, records) ∧
      table = ofRecords categorical table.columnNames records ∧
      (∀ fields ∈ records, fields.length = table.columnNames.length) ∧
      categorical.find? (fun name => name ∉ table.columnNames) = none := by
  cases read : Delimited.read bytes with
  | error fault => simp [ofDelimited, read] at parsed
  | ok done =>
      obtain ⟨names, records⟩ := done
      obtain ⟨rfl, known⟩ := ofRecords_of_read read parsed
      refine ⟨records, ?_⟩
      rw [columnNames_ofRecords]
      exact ⟨rfl, rfl, length_of_read read, known⟩

theorem ofRecords_of_ofDelimited (parsed : ofDelimited categorical bytes = .ok table) :
    ∃ records, table = ofRecords categorical table.columnNames records ∧
      (∀ fields ∈ records, fields.length = table.columnNames.length) ∧
      categorical.find? (fun name => name ∉ table.columnNames) = none :=
  (read_of_ofDelimited parsed).imp fun _ => And.right

/-- The text of a table is read as the header of its names, up to a mark in front of the first, and
the texts of its cells. -/
theorem read_toDelimited (categorical : List String) (wide : names ≠ [])
    (kept : names ≠ [String.singleton mark])
    (even : ∀ fields ∈ records, fields.length = names.length) :
    ∃ text, (ofRecords categorical names records).toDelimited = .ok text ∧
      Delimited.read (Text.Utf8.encode text.toList) = .ok (readHeader names,
        rewriteRecords (kindsOf categorical names records) records) := by
  obtain ⟨text, written, again⟩ := read_write wide kept (length_rewriteRecords categorical even)
  exact ⟨text, by rw [toDelimited_ofRecords, written]; rfl, again⟩

theorem read_toDelimited_mark (categorical : List String)
    (even : ∀ fields ∈ records, fields.length = 1) :
    ∃ text, (ofRecords categorical [String.singleton mark] records).toDelimited = .ok text ∧
      Delimited.read (Text.Utf8.encode text.toList) =
        .ok ((rewriteRecords (kindsOf categorical [String.singleton mark] records) records).headD [],
          (rewriteRecords (kindsOf categorical [String.singleton mark] records) records).tail) := by
  have even' : ∀ fields ∈ records, fields.length = [String.singleton mark].length := even
  obtain ⟨text, written, again⟩ := read_write_mark (length_rewriteRecords categorical even')
  exact ⟨text, by rw [toDelimited_ofRecords, written]; rfl, again⟩

/-- A column comes back in the table of what was written if its kind is found again and reads the
cells that it wrote. -/
theorem comes_back_iff (even : ∀ fields ∈ records, fields.length = names.length)
    (at_ : (ofRecords categorical names records).columns[index]? = some column) :
    ((ofRecords categorical names (rewriteRecords (kindsOf categorical names records)
          records)).columns[index]? = some column ∧
        (ofRecords categorical names (rewriteRecords (kindsOf categorical names records)
          records)).cellsAt index = (ofRecords categorical names records).cellsAt index) ↔
      ColumnKind.ofTexts categorical column.name
          ((columnTexts records index).map column.kind.rewrite) = column.kind ∧
        ∀ text ∈ columnTexts records index,
          column.kind.cell (column.kind.rewrite text) = column.kind.cell text := by
  have texts := columnTexts_rewriteRecords even at_
  obtain ⟨present, _⟩ := eq_of_getElem?_columns at_
  have found : (ofRecords categorical names (rewriteRecords (kindsOf categorical names records)
      records)).columns[index]? = some column ↔
      ColumnKind.ofTexts categorical column.name
        ((columnTexts records index).map column.kind.rewrite) = column.kind := by
    rw [getElem?_columns, present, texts, Option.map_some]
    cases column
    simp
  rw [← found]
  refine and_congr_right fun again => ?_
  rw [cellsAt_ofRecords (length_rewriteRecords _ even) again, cellsAt_ofRecords even at_, texts,
    List.map_map, List.map_inj_left]
  simp

/-- A table that was read from text is written, and read again from what was written with the same
names, rows and columns. Of the columns other than those of reals, exactly those come back with
all their cells that have no more labels than there are codes. -/
theorem ofDelimited_toDelimited (parsed : ofDelimited categorical bytes = .ok table)
    (wide : table.columns ≠ [])
    (unmarked : ∀ name ∈ table.columnNames.head?, name.toList.head? ≠ some mark)
    (writable : ∀ row ∈ table.rows, ∀ millis, Cell.timestamp millis ∈ row →
      Timestamp.isWritable millis.toInt = true) :
    ∃ text again, table.toDelimited = .ok text ∧
      ofDelimited categorical (Text.Utf8.encode text.toList) = .ok again ∧
      again.columnNames = table.columnNames ∧ again.rowCount = table.rowCount ∧
      ∀ index column, table.columns[index]? = some column → column.kind ≠ .real →
        ((again.columns[index]? = some column ∧ again.cellsAt index = table.cellsAt index) ↔
          column.kind.labels.length ≤ UInt32.size) := by
  obtain ⟨records, whole, even, known⟩ := ofRecords_of_ofDelimited parsed
  have wideNames : table.columnNames ≠ [] := by simpa [columnNames] using wide
  generalize table.columnNames = names at *
  subst whole
  have kept : names ≠ [String.singleton mark] := by
    rintro rfl
    exact unmarked _ rfl (by simp)
  obtain ⟨text, written, read⟩ := read_toDelimited categorical wideNames kept even
  rw [readHeader_of_unmarked unmarked] at read
  have evenAgain := length_rewriteRecords categorical even
  refine ⟨text, ofRecords categorical names (rewriteRecords (kindsOf categorical names records)
    records), written, ?_, ?_, ?_, ?_⟩
  · simp only [ofDelimited, read, known]
  · exact columnNames_ofRecords
  · simp [rowCount, ofRecords, rewriteRecords]
  · intro index column at_ exact
    rw [comes_back_iff even at_]
    refine ColumnKind.ofTexts_rewrite (eq_of_getElem?_columns at_).2.symm exact ?_
    intro text member millis stamp
    have inside : some (Cell.timestamp millis) ∈
        (ofRecords categorical names records).cellsAt index := by
      rw [cellsAt_ofRecords even at_, ← stamp]
      exact List.mem_map_of_mem member
    obtain ⟨row, own, cell⟩ := List.mem_map.mp inside
    exact writable row own millis (List.mem_of_getElem? cell)

theorem eq_ok_of_toOption {failure value : Type} {result : Except failure value} {done : value}
    (same : result.toOption = some done) : result = .ok done := by
  cases result with
  | error => contradiction
  | ok other => exact congrArg Except.ok (Option.some.inj same)

theorem ofDelimited_toDelimited_dated :
    ∃ text again,
      toDelimited ⟨[⟨"day", .timestamp⟩, ⟨"kind", .categorical ["x"]⟩],
        [[.timestamp 1577836800000, .category 0], [.null, .null]]⟩ = .ok text ∧
      ofDelimited ["kind"] (Text.Utf8.encode text.toList) = .ok again ∧
      again.columns[1]? = some ⟨"kind", .categorical ["x"]⟩ ∧
      again.cellsAt 0 = [some (.timestamp 1577836800000), some .null] := by
  have parsed : ofDelimited ["kind"] (Text.Utf8.encode "day,kind\n2020-01-01,x\n,\n".toList) =
      .ok ⟨[⟨"day", .timestamp⟩, ⟨"kind", .categorical ["x"]⟩],
        [[.timestamp 1577836800000, .category 0], [.null, .null]]⟩ :=
    eq_ok_of_toOption (by decide +kernel)
  have dates : ∀ row ∈ [[Cell.timestamp 1577836800000, .category 0], [.null, .null]],
      ∀ millis, Cell.timestamp millis ∈ row → Timestamp.isWritable millis.toInt = true := by
    intro row member millis stamp
    simp only [List.mem_cons, List.not_mem_nil, or_false] at member
    rcases member with rfl | rfl
    · obtain rfl : millis = 1577836800000 := by simpa using stamp
      decide
    · simp at stamp
  obtain ⟨text, again, written, read, _, _, columns⟩ :=
    ofDelimited_toDelimited parsed (by decide) (by decide) dates
  have day := (columns 0 ⟨"day", .timestamp⟩ rfl (by decide)).mpr (by decide)
  have kind := (columns 1 ⟨"kind", .categorical ["x"]⟩ rfl (by decide)).mpr (by decide)
  exact ⟨text, again, written, read, kind.1, day.2⟩

end LinkedViews.Table
