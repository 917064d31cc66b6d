import LinkedViews.Proofs.Number.Written
import LinkedViews.Proofs.Table.RoundTrip

/-!
Columns of reals, written and read again. The text of every real is read as that real; but a column
of nothing but whole numbers that are written like integers comes back as a column of integers.
-/

namespace LinkedViews

/-- A cell as it comes back from its text: all texts of no number give the same one. -/
def Cell.settled : Cell → Cell
  | .real value => .real (if value.isNaN then .nan else value)
  | cell => cell

namespace ColumnKind

variable {texts : List String} {text : String}

theorem display_ne_empty (x : Binary64) : (Cell.real x).display ≠ "" := by
  intro blank
  have read := Numeral.readBinary64?_withPoint x
  change Numeral.withPoint x = "" at blank
  have unread : Numeral.readBinary64? "".toList = none := by decide
  rw [blank, unread] at read
  contradiction

theorem rewrite_real (found : infer texts = .real) (member : text ∈ present texts) :
    ∃ x, real.cell text = .real x ∧ real.rewrite text = (Cell.real x).display := by
  have reads := List.find?_some (find_of_infer (by decide) found).2
  have shown := (mem_present.mp member).2
  obtain ⟨own, read⟩ := Option.isSome_iff_exists.mp (List.all_eq_true.mp reads text member)
  obtain ⟨x, _, rfl⟩ := Option.map_eq_some_iff.mp read
  have value : real.cell text = .real x := by simp [ColumnKind.cell, shown, read]
  exact ⟨x, value, by rw [rewrite_eq_display (by simp), value]⟩

theorem cell_rewrite_real (found : infer texts = .real) (member : text ∈ texts) :
    real.cell (real.rewrite text) = (real.cell text).settled := by
  by_cases blank : text = ""
  · rw [blank, rewrite_empty, cell_empty]
    rfl
  · obtain ⟨x, value, shown⟩ := rewrite_real found (mem_present.mpr ⟨member, blank⟩)
    have read := Numeral.readBinary64?_withPoint x
    rw [shown, value, ColumnKind.cell, if_neg (display_ne_empty x), readCell?]
    simp [Cell.display, read, Cell.settled]

theorem present_rewrite_real (found : infer texts = .real) :
    present (texts.map real.rewrite) = (present texts).map real.rewrite := by
  refine present_map (rewrite_empty _) fun text member => ?_
  obtain ⟨x, _, own⟩ := rewrite_real found member
  rw [own]
  exact display_ne_empty x

theorem reads_rewrite_real (found : infer texts = .real) :
    real.reads (present (texts.map real.rewrite)) = true := by
  rw [present_rewrite_real found, ColumnKind.reads, List.all_map]
  refine List.all_eq_true.mpr fun text member => ?_
  obtain ⟨x, _, own⟩ := rewrite_real found member
  simp [own, readCell?, Cell.display, Numeral.readBinary64?_withPoint]

theorem integer_reads_rewrite_real (found : infer texts = .real) :
    integer.reads (present (texts.map real.rewrite)) = false ↔
      ∃ text ∈ texts, ∃ x, real.cell text = .real x ∧ x.isBare = false := by
  rw [present_rewrite_real found, ColumnKind.reads, List.all_map, List.all_eq_false]
  constructor
  · rintro ⟨text, member, unread⟩
    obtain ⟨x, value, own⟩ := rewrite_real found member
    refine ⟨text, (mem_present.mp member).1, x, value, ?_⟩
    rw [← Numeral.isSome_readInt64?_withPoint]
    simpa [own, readCell?, Cell.display] using unread
  · rintro ⟨text, member, x, value, bare⟩
    have nonempty : text ≠ "" := by
      rintro rfl
      simp at value
    have inside := mem_present.mpr ⟨member, nonempty⟩
    obtain ⟨y, same, own⟩ := rewrite_real found inside
    obtain rfl : x = y := by simpa [value] using same
    rw [← Numeral.isSome_readInt64?_withPoint] at bare
    exact ⟨text, inside, by simpa [own, readCell?, Cell.display] using bare⟩

/-- The kind that is found for the texts of a column of reals when it has been written. -/
theorem infer_rewrite_real (found : infer texts = .real) :
    (infer (texts.map real.rewrite) = .real ↔
      ∃ text ∈ texts, ∃ x, real.cell text = .real x ∧ x.isBare = false) := by
  have reads := reads_rewrite_real found
  have nonempty : present (texts.map real.rewrite) ≠ [] := by
    simp [present_rewrite_real found, (find_of_infer (by decide) found).1]
  -- Reals are read again in any case, but integers are looked for before them.
  rw [← integer_reads_rewrite_real found, infer, if_neg nonempty]
  cases whole : integer.reads (present (texts.map real.rewrite)) with
  | false => simp [inferred, whole, reads]
  | true => simp [inferred, whole]

end ColumnKind

namespace Table

open Delimited

variable {categorical chosen names header : List String} {records : List (List String)}
  {table : Table} {column : Column} {bytes : List UInt8} {index : Nat}

theorem infer_of_real
    (at_ : (ofRecords categorical names records).columns[index]? = some column)
    (reals : column.kind = .real) :
    ColumnKind.infer (columnTexts records index) = .real := by
  have known := (eq_of_getElem?_columns at_).2
  rw [reals] at known
  have plain : ∀ labels, ColumnKind.real ≠ .categorical labels := by simp
  exact (ColumnKind.ofTexts_of_not_categorical known.symm plain).2

theorem exists_real_iff (even : ∀ fields ∈ records, fields.length = names.length)
    (at_ : (ofRecords categorical names records).columns[index]? = some column)
    (reals : column.kind = .real) :
    (∃ x, some (.real x) ∈ (ofRecords categorical names records).cellsAt index ∧
        x.isBare = false) ↔
      ∃ text ∈ columnTexts records index, ∃ x,
        ColumnKind.real.cell text = .real x ∧ x.isBare = false := by
  rw [cellsAt_ofRecords even at_, reals]
  constructor
  · rintro ⟨x, member, bare⟩
    obtain ⟨text, own, value⟩ := List.mem_map.mp member
    exact ⟨text, own, x, Option.some.inj value, bare⟩
  · rintro ⟨text, own, x, value, bare⟩
    exact ⟨x, List.mem_map.mpr ⟨text, own, congrArg some value⟩, bare⟩

/-- What a column of reals becomes in the table of what was written, under a header of as many
names. -/
theorem column_rewriteRecords (even : ∀ fields ∈ records, fields.length = names.length)
    (size : header.length = names.length)
    (at_ : (ofRecords categorical names records).columns[index]? = some column)
    (reals : column.kind = .real) :
    ∃ found, (ofRecords chosen header (rewriteRecords (kindsOf categorical names records)
        records)).columns[index]? = some found ∧ (found.name ∉ chosen →
      (found.kind = .real ↔ ∃ x,
        some (.real x) ∈ (ofRecords categorical names records).cellsAt index ∧
          x.isBare = false) ∧
      (found.kind = .real →
        (ofRecords chosen header (rewriteRecords (kindsOf categorical names records)
            records)).cellsAt index =
          ((ofRecords categorical names records).cellsAt index).map
            (Option.map Cell.settled))) := by
  obtain ⟨own, _⟩ := eq_of_getElem?_columns at_
  have inferred := infer_of_real at_ reals
  have bound : index < header.length := by
    rw [size]
    exact (List.getElem?_eq_some_iff.mp own).1
  have texts := columnTexts_rewriteRecords even at_
  have evenAgain := length_rewriteRecords categorical even
  rw [← size] at evenAgain
  generalize rewriteRecords (kindsOf categorical names records) records = rewritten at *
  obtain ⟨found, again⟩ : ∃ found, (ofRecords chosen header rewritten).columns[index]? =
      some found := by
    simp [getElem?_columns, bound]
  refine ⟨found, again, fun free => ?_⟩
  have kind : found.kind =
      .infer ((columnTexts records index).map ColumnKind.real.rewrite) := by
    rw [(eq_of_getElem?_columns again).2, ColumnKind.ofTexts, if_neg free, texts, reals]
  rw [exists_real_iff even at_ reals, cellsAt_ofRecords evenAgain again,
    cellsAt_ofRecords even at_, texts, reals, kind]
  refine ⟨ColumnKind.infer_rewrite_real inferred, fun real => ?_⟩
  rw [real, List.map_map, List.map_map]
  exact List.map_congr_left fun text member => congrArg some
    (ColumnKind.cell_rewrite_real inferred member)

/-- A column of reals that was read from text is written and read again, under any choice of
categorical columns that the text allows. All rows come back unless the column is the only one and
its name nothing but the mark. Then it is a column of reals again if and only if one of its numbers
is not bare, and in that case all its numbers are the ones they were. -/
theorem ofDelimited_toDelimited_real (parsed : ofDelimited categorical bytes = .ok table)
    (at_ : table.columns[index]? = some column) (reals : column.kind = .real) :
    ∃ text, table.toDelimited = .ok text ∧
      (∃ again, ofDelimited [] (Text.Utf8.encode text.toList) = .ok again) ∧
      ∀ chosen again, ofDelimited chosen (Text.Utf8.encode text.toList) = .ok again →
        (table.columnNames = [String.singleton mark] → again.rowCount + 1 = table.rowCount) ∧
        (table.columnNames ≠ [String.singleton mark] → again.rowCount = table.rowCount ∧
          ∃ found, again.columns[index]? = some found ∧ (found.name ∉ chosen →
            (found.kind = .real ↔
              ∃ x, some (.real x) ∈ table.cellsAt index ∧ x.isBare = false) ∧
            (found.kind = .real →
              again.cellsAt index = (table.cellsAt index).map (Option.map Cell.settled)))) := by
  obtain ⟨records, whole, even, _⟩ := ofRecords_of_ofDelimited parsed
  have wide : table.columnNames ≠ [] := by
    rw [columnNames, ne_eq, List.map_eq_nil_iff]
    rintro none
    simp [none] at at_
  generalize table.columnNames = names at *
  subst whole
  by_cases kept : names = [String.singleton mark]
  · subst kept
    obtain ⟨text, written, read⟩ := read_toDelimited_mark categorical even
    refine ⟨text, written, ⟨_, by rw [ofDelimited, read]; rfl⟩, fun chosen again readAgain => ?_⟩
    obtain ⟨rfl, _⟩ := ofRecords_of_read read readAgain
    refine ⟨fun _ => ?_, fun other => absurd rfl other⟩
    have filled : records ≠ [] := by
      rintro rfl
      have none : ColumnKind.infer (columnTexts [] index) = .text := rfl
      rw [infer_of_real at_ reals] at none
      contradiction
    obtain ⟨first, others, rfl⟩ := List.exists_cons_of_ne_nil filled
    simp [rowCount, ofRecords, rewriteRecords]
  · obtain ⟨text, written, read⟩ := read_toDelimited categorical wide kept even
    refine ⟨text, written, ⟨_, by rw [ofDelimited, read]; rfl⟩, fun chosen again readAgain => ?_⟩
    obtain ⟨rfl, _⟩ := ofRecords_of_read read readAgain
    exact ⟨fun only => absurd only kept, fun _ => ⟨by simp [rowCount, ofRecords, rewriteRecords],
      column_rewriteRecords even (length_readHeader names) at_ reals⟩⟩

theorem ofDelimited_toDelimited_half :
    ∃ text again,
      toDelimited ⟨[⟨"a", .real⟩],
        [[.real ⟨4602678819172646912⟩], [.real ⟨4831355200913801216⟩]]⟩ = .ok text ∧
      ofDelimited [] (Text.Utf8.encode text.toList) = .ok again ∧
      again.cellsAt 0 =
        [some (.real ⟨4602678819172646912⟩), some (.real ⟨4831355200913801216⟩)] := by
  have parsed : ofDelimited [] (Text.Utf8.encode "a\n0.5\n1e15\n".toList) =
      .ok ⟨[⟨"a", .real⟩],
        [[.real ⟨4602678819172646912⟩], [.real ⟨4831355200913801216⟩]]⟩ :=
    eq_ok_of_toOption (by decide +kernel)
  have at_ : [(⟨"a", .real⟩ : Column)][0]? = some ⟨"a", .real⟩ := rfl
  obtain ⟨text, written, ⟨again, read⟩, columns⟩ :=
    ofDelimited_toDelimited_real parsed at_ rfl
  obtain ⟨_, found, _, free⟩ := (columns [] again read).2 (by decide)
  obtain ⟨kind, cells⟩ := free (by simp)
  have half : (⟨4602678819172646912⟩ : Binary64).isBare = false := by decide +kernel
  have real := kind.mpr ⟨⟨4602678819172646912⟩, by simp [cellsAt], half⟩
  refine ⟨text, again, written, read, (cells real).trans ?_⟩
  decide +kernel

/-- A column of nothing but 10¹⁵ is written like an integer and comes back as one. -/
theorem ofDelimited_toDelimited_bare :
    ∃ table text again, ofDelimited [] (Text.Utf8.encode "a\n1e15\n".toList) = .ok table ∧
      table.columns = [⟨"a", .real⟩] ∧ table.toDelimited = .ok text ∧
      ofDelimited [] (Text.Utf8.encode text.toList) = .ok again ∧
      again.columns = [⟨"a", .integer⟩] := by
  refine ⟨⟨[⟨"a", .real⟩], [[.real ⟨4831355200913801216⟩]]⟩, "a\n1000000000000000\n",
    ⟨[⟨"a", .integer⟩], [[.integer 1000000000000000]]⟩, ?_, rfl, ?_, ?_, rfl⟩
  · exact eq_ok_of_toOption (by decide +kernel)
  · exact eq_ok_of_toOption (by decide +kernel)
  · exact eq_ok_of_toOption (by decide +kernel)

end Table

end LinkedViews
