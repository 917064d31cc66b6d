import LinkedViews.Proofs.Number.Whole
import LinkedViews.Proofs.Table.Reals
import LinkedViews.Proofs.Table.Typing

/-!
A table that is read from a written one is written as the same text. Its columns need not be of the
kinds that were written: reals come back as integers, and points in time beyond the range of dates
as integers or text. But whichever kind is found for written cells writes each of them as it is.
-/

namespace LinkedViews

theorem Cell.display_settled (cell : Cell) : cell.settled.display = cell.display := by
  cases cell with
  | real value =>
      by_cases number : value.isNaN = true
      · have infinite : value.isFinite = false := by
          simp only [Binary64.isNaN, decide_eq_true_eq] at number
          exact decide_eq_false (by omega)
        have notWhole : value.isWhole = false := by simp [Binary64.isWhole, infinite]
        have same : Numeral.withPoint value = Numeral.withPoint .nan := by
          rw [Numeral.withPoint, if_neg (by simp [notWhole]), Numeral.plain, if_pos number]
          decide +kernel
        simp [settled, number, display, same]
      · simp [settled, number]
  | _ => rfl

namespace ColumnKind

variable {kind : ColumnKind} {texts : List String} {text : String} {cell : Cell}

/-! ## Kinds that write what they read -/

theorem rewrite_of_cell_eq (same : kind.cell (kind.rewrite text) = kind.cell text) :
    kind.rewrite (kind.rewrite text) = kind.rewrite text :=
  congrArg (fun cell => (Column.labelCell ⟨"", kind⟩ cell).display) same

/-- The kind of a column reads each of its texts, and writes the cell it has read. -/
theorem exists_written (found : infer texts = kind) (member : text ∈ present texts) :
    ∃ cell, kind.readCell? text = some cell ∧ kind.cell text = cell ∧
      kind.rewrite text = cell.display := by
  obtain ⟨inside, shown⟩ := mem_present.mp member
  obtain ⟨cell, read⟩ := (found ▸ typed_infer texts).readCell? inside shown
  have plain : ∀ labels, kind ≠ .categorical labels := fun labels same =>
    infer_ne_categorical labels (found.trans same)
  have value := cell_of_readCell? shown read
  exact ⟨cell, read, value, by rw [rewrite_eq_display plain, value]⟩

/-- A kind leaves the texts it was found for as they are if it writes each as it reads it. -/
theorem rewrite_infer_eq_self
    (same : ∀ text ∈ texts, text ≠ "" → ∀ cell, (infer texts).readCell? text = some cell →
      cell.display = text) (member : text ∈ texts) : (infer texts).rewrite text = text := by
  by_cases blank : text = ""
  · rw [blank, rewrite_empty]
  · obtain ⟨cell, read, _, written⟩ := exists_written rfl (mem_present.mpr ⟨member, blank⟩)
    rw [written]
    exact same text member blank cell read

theorem cell_ne_timestamp (found : infer texts = kind) (other : kind ≠ .timestamp)
    (member : text ∈ texts) (millis : Int64) : kind.cell text ≠ .timestamp millis := by
  by_cases blank : text = ""
  · simp [blank]
  · obtain ⟨cell, read, value, _⟩ := exists_written found (mem_present.mpr ⟨member, blank⟩)
    rw [value]
    rintro rfl
    have holds := holds_of_readCell? read
    cases kind with
    | timestamp => exact other rfl
    | _ => exact holds

theorem rewrite_infer_exact (listed : kind ∈ inferred) (exact : kind ≠ .real)
    (found : infer texts = kind) (member : text ∈ texts)
    (writable : ∀ text ∈ texts, ∀ millis, kind.cell text = .timestamp millis →
      Timestamp.isWritable millis.toInt = true) :
    (infer (texts.map kind.rewrite)).rewrite (kind.rewrite text) = kind.rewrite text := by
  obtain ⟨again, cells⟩ := infer_rewrite listed exact found writable
  rw [again]
  exact rewrite_of_cell_eq (cells text member)

/-! ## Reals -/

theorem accepts_rewrite_real (found : infer texts = .real) :
    real.Accepts (texts.map real.rewrite) := by
  refine accepts_iff.mpr ⟨?_, reads_rewrite_real found⟩
  simp [present_rewrite_real found, (find_of_infer (by decide) found).1]

theorem display_of_read_real (found : infer texts = .real)
    (member : text ∈ texts.map real.rewrite) (shown : text ≠ "")
    (read : integer.readCell? text = some cell) : cell.display = text := by
  obtain ⟨source, inside, rfl⟩ := exists_source member shown
  obtain ⟨x, _, own⟩ := rewrite_real found inside
  rw [own] at read ⊢
  obtain ⟨value, whole, rfl⟩ := Option.map_eq_some_iff.mp read
  exact Numeral.ofInt_of_readInt64?_withPoint whole

theorem rewrite_infer_real (found : infer texts = .real) (member : text ∈ texts) :
    (infer (texts.map real.rewrite)).rewrite (real.rewrite text) = real.rewrite text := by
  have accepts := accepts_rewrite_real found
  have typed := typed_infer (texts.map real.rewrite)
  by_cases again : infer (texts.map real.rewrite) = .real
  · rw [again, rewrite_eq_display (by simp), cell_rewrite_real found member, Cell.display_settled,
      ← rewrite_eq_display (by simp)]
  · refine rewrite_infer_eq_self (fun other inside shown cell read => ?_)
      (List.mem_map_of_mem member)
    generalize infer (texts.map real.rewrite) = kind at typed again read
    cases typed with
    | integer => exact display_of_read_real found inside shown read
    | real => exact absurd rfl again
    | boolean _ noReal => exact absurd accepts noReal
    | timestamp _ noReal => exact absurd accepts noReal
    | text _ noReal => exact absurd accepts noReal

/-! ## Points in time -/

theorem exists_format (found : infer texts = .timestamp)
    (member : text ∈ texts.map timestamp.rewrite) (shown : text ≠ "") :
    ∃ millis : Int64, text = Timestamp.format millis.toInt := by
  obtain ⟨source, inside, rfl⟩ := exists_source member shown
  obtain ⟨cell, read, _, written⟩ := exists_written found inside
  obtain ⟨instant, _, rfl⟩ := Option.map_eq_some_iff.mp read
  exact ⟨Int64.ofInt instant, written⟩

theorem readBoolean?_ofInt (value : Int) : readBoolean? (Numeral.ofInt value) = none := by
  have letters : "trueTRUEfalseFALSE".toList.all (fun c => !c.isDigit) = true := by decide
  obtain ⟨c, _, shown⟩ := List.exists_cons_of_ne_nil (Numeral.digits_ne_nil value.natAbs)
  have own : c ∈ Numeral.digits value.natAbs := by simp [shown]
  have member : c ∈ (Numeral.ofInt value).toList := by
    unfold Numeral.ofInt Numeral.ofNat
    split <;> simp [own]
  refine readBoolean?_eq_none member fun letter => ?_
  have strange := List.all_eq_true.mp letters c letter
  rw [Numeral.isDigit_of_mem_digits own] at strange
  exact absurd strange (by decide)

/-- Beyond the range of dates a point in time is written like an integer, and the column comes back
as one of integers, or of text where other points in time are within the range. -/
theorem display_of_read_timestamp {millis : Int64} (found : infer texts = .timestamp)
    (late : Timestamp.format millis.toInt ∈ texts.map timestamp.rewrite)
    (unwritable : ¬ Timestamp.isWritable millis.toInt = true)
    (member : text ∈ texts.map timestamp.rewrite) (shown : text ≠ "")
    (read : (infer (texts.map timestamp.rewrite)).readCell? text = some cell) :
    cell.display = text := by
  have typed := typed_infer (texts.map timestamp.rewrite)
  have number : Timestamp.format millis.toInt = Numeral.ofInt millis.toInt := if_neg unwritable
  have nonempty : Timestamp.format millis.toInt ≠ "" := by
    intro blank
    have own := Numeral.readInt64?_ofInt millis
    have unread : Numeral.readInt64? "".toList = none := by decide
    rw [← number, blank, unread] at own
    contradiction
  generalize infer (texts.map timestamp.rewrite) = kind at typed read
  cases typed with
  | text =>
      obtain rfl : .text text = cell := Option.some.inj read
      rfl
  | boolean _ _ reads =>
      obtain ⟨other, unread⟩ := reads.2 _ late nonempty
      simp [readCell?, number, readBoolean?_ofInt] at unread
  | timestamp _ _ _ reads =>
      obtain ⟨other, unread⟩ := reads.2 _ late nonempty
      simp [readCell?, number, Timestamp.read?_ofInt] at unread
  | integer =>
      obtain ⟨own, rfl⟩ := exists_format found member shown
      by_cases date : Timestamp.isWritable own.toInt = true
      · simp [readCell?, Timestamp.readInt64?_format date] at read
      · have plain : Timestamp.format own.toInt = Numeral.ofInt own.toInt := if_neg date
        rw [plain] at read ⊢
        obtain rfl : .integer own = cell := by
          simpa [readCell?, Numeral.readInt64?_ofInt] using read
        rfl
  | real noInteger reads =>
      -- Reals would read no date, so that integers would have read everything before them.
      refine absurd ⟨reads.1, fun other inside otherShown => ?_⟩ noInteger
      obtain ⟨value, unread⟩ := reads.2 other inside otherShown
      obtain ⟨own, rfl⟩ := exists_format found inside otherShown
      by_cases date : Timestamp.isWritable own.toInt = true
      · simp [readCell?, Timestamp.readBinary64?_format date] at unread
      · have plain : Timestamp.format own.toInt = Numeral.ofInt own.toInt := if_neg date
        exact ⟨.integer own, by simp [readCell?, plain, Numeral.readInt64?_ofInt]⟩

theorem rewrite_infer_timestamp (found : infer texts = .timestamp) (member : text ∈ texts) :
    (infer (texts.map timestamp.rewrite)).rewrite (timestamp.rewrite text) =
      timestamp.rewrite text := by
  by_cases writable : ∀ text ∈ texts, ∀ millis, timestamp.cell text = .timestamp millis →
      Timestamp.isWritable millis.toInt = true
  · exact rewrite_infer_exact (by decide) (by decide) found member writable
  · simp only [not_forall] at writable
    obtain ⟨late, inside, millis, stamp, unwritable⟩ := writable
    have written : timestamp.rewrite late = Timestamp.format millis.toInt := by
      rw [rewrite_eq_display (by simp), stamp]
      rfl
    exact rewrite_infer_eq_self (fun other own shown cell read => display_of_read_timestamp found
      (written ▸ List.mem_map_of_mem inside) unwritable own shown read)
      (List.mem_map_of_mem member)

/-! ## All kinds -/

theorem rewrite_infer (member : text ∈ texts) :
    (infer (texts.map (infer texts).rewrite)).rewrite ((infer texts).rewrite text) =
      (infer texts).rewrite text := by
  cases found : infer texts with
  | categorical labels => exact absurd found (infer_ne_categorical labels)
  | text => rw [map_eq_self fun text _ => rewrite_text text, found, rewrite_text, rewrite_text]
  | real => exact rewrite_infer_real found member
  | timestamp => exact rewrite_infer_timestamp found member
  | integer =>
      exact rewrite_infer_exact (by decide) (by decide) found member fun _ inside millis stamp =>
        absurd stamp (cell_ne_timestamp found (by decide) inside millis)
  | boolean =>
      exact rewrite_infer_exact (by decide) (by decide) found member fun _ inside millis stamp =>
        absurd stamp (cell_ne_timestamp found (by decide) inside millis)

theorem rewrite_labelsOf (member : text ∈ texts) :
    (categorical (labelsOf (texts.map (categorical (labelsOf texts)).rewrite))).rewrite
        ((categorical (labelsOf texts)).rewrite text) =
      (categorical (labelsOf texts)).rewrite text := by
  by_cases blank : (categorical (labelsOf texts)).rewrite text = ""
  · rw [blank, rewrite_empty]
  · exact rewrite_label (length_labelsOf_rewrite texts)
      (mem_labelsOf.mpr ⟨List.mem_map_of_mem member, blank⟩)

/-- The kind that is found for what a column wrote writes it again. -/
theorem rewrite_ofTexts (categorical : List String) (name : String) (member : text ∈ texts) :
    (ofTexts categorical name
        (texts.map (ofTexts categorical name texts).rewrite)).rewrite
        ((ofTexts categorical name texts).rewrite text) =
      (ofTexts categorical name texts).rewrite text := by
  unfold ofTexts
  split
  · exact rewrite_labelsOf member
  · exact rewrite_infer member

end ColumnKind

namespace Table

open Delimited

variable {categorical names : List String} {records : List (List String)} {table : Table}
  {bytes : List UInt8}

theorem rewriteRecords_again (categorical : List String)
    (even : ∀ fields ∈ records, fields.length = names.length) :
    rewriteRecords (kindsOf categorical names (rewriteRecords (kindsOf categorical names records)
        records)) (rewriteRecords (kindsOf categorical names records) records) =
      rewriteRecords (kindsOf categorical names records) records := by
  have evenAgain := length_rewriteRecords categorical even
  have texts (index : Nat) (column : Column)
      (at_ : (ofRecords categorical names records).columns[index]? = some column) :=
    columnTexts_rewriteRecords even at_
  generalize rewriteRecords (kindsOf categorical names records) records = written at *
  conv_lhs => rw [rewriteRecords]
  refine (List.map_congr_left fun fields member => ?_).trans (List.map_id written)
  apply List.ext_getElem?
  intro index
  have long := evenAgain fields member
  cases own : names[index]? with
  | none =>
      have beyond : fields.length ≤ index := long ▸ List.getElem?_eq_none_iff.mp own
      rw [id, List.getElem?_eq_none beyond, List.getElem?_eq_none]
      rw [List.length_zipWith]
      exact Nat.le_trans (Nat.min_le_right ..) beyond
  | some name =>
      have inside : index < fields.length := long ▸ (List.getElem?_eq_some_iff.mp own).1
      have at_ : (ofRecords categorical names records).columns[index]? =
          some ⟨name, .ofTexts categorical name (columnTexts records index)⟩ := by
        rw [getElem?_columns, own, Option.map_some]
      have kind : (kindsOf categorical names written)[index]? =
          some (.ofTexts categorical name (columnTexts written index)) := by
        rw [getElem?_kindsOf, own, Option.map_some]
      have column := texts index _ at_
      have text : fields.getD index "" ∈ columnTexts written index := List.mem_map_of_mem member
      rw [getElem?_zipWith_kinds kind (long.trans length_kindsOf.symm), column]
      rw [column] at text
      obtain ⟨source, known, same⟩ := List.mem_map.mp text
      rw [← same, ColumnKind.rewrite_ofTexts categorical name known, same]
      simp [inside]

/-- A table without columns is written as an empty field, and that as it is. -/
theorem toDelimited_again_empty :
    ∃ text again, toDelimited ⟨[], []⟩ = .ok text ∧
      ofDelimited [] (Text.Utf8.encode text.toList) = .ok again ∧ again.toDelimited = .ok text :=
  ⟨"\"\"\n", ⟨[⟨"", .text⟩], []⟩, eq_ok_of_toOption (by decide +kernel),
    eq_ok_of_toOption (by decide +kernel), eq_ok_of_toOption (by decide +kernel)⟩

/-- The text that is written for a table that was read is read again, with the same choice of
categorical columns, as a table for which it is written. -/
theorem toDelimited_again (parsed : ofDelimited categorical bytes = .ok table)
    (unmarked : ∀ name ∈ table.columnNames.head?, name.toList.head? ≠ some mark) :
    ∃ text again, table.toDelimited = .ok text ∧
      ofDelimited categorical (Text.Utf8.encode text.toList) = .ok again ∧
      again.toDelimited = .ok text := by
  obtain ⟨records, read, whole, even, known⟩ := read_of_ofDelimited parsed
  generalize table.columnNames = names at *
  subst whole
  by_cases narrow : names = []
  · subst narrow
    obtain rfl := read_of_header_nil read
    have none : categorical = [] := by
      simpa [List.find?_eq_none, List.eq_nil_iff_forall_not_mem] using known
    subst none
    exact toDelimited_again_empty
  · have kept : names ≠ [String.singleton mark] := by
      rintro rfl
      exact unmarked _ rfl (by simp)
    obtain ⟨text, written, readAgain⟩ := read_toDelimited categorical narrow kept even
    rw [readHeader_of_unmarked unmarked] at readAgain
    refine ⟨text, ofRecords categorical names (rewriteRecords (kindsOf categorical names records)
      records), written, ?_, ?_⟩
    · simp only [ofDelimited, readAgain, known]
    · rw [toDelimited_ofRecords, rewriteRecords_again categorical even, ← toDelimited_ofRecords]
      exact written

/-- The first column comes back as one of integers and the second as one of text. -/
theorem toDelimited_again_drifting :
    ∃ text again,
      toDelimited ⟨[⟨"a", .real⟩, ⟨"t", .timestamp⟩],
        [[.real ⟨4831355200913801216⟩, .timestamp 8210266876800000],
          [.real ⟨4835858800541171712⟩, .timestamp 1577836800000]]⟩ = .ok text ∧
      ofDelimited [] (Text.Utf8.encode text.toList) = .ok again ∧
      again.toDelimited = .ok text := by
  have parsed : ofDelimited [] (Text.Utf8.encode
        "a,t\n1e15,+262142-12-31 23:59:60\n2e15,2020-01-01\n".toList) =
      .ok ⟨[⟨"a", .real⟩, ⟨"t", .timestamp⟩],
        [[.real ⟨4831355200913801216⟩, .timestamp 8210266876800000],
          [.real ⟨4835858800541171712⟩, .timestamp 1577836800000]]⟩ :=
    eq_ok_of_toOption (by decide +kernel)
  exact toDelimited_again parsed (by decide)

end Table

end LinkedViews
