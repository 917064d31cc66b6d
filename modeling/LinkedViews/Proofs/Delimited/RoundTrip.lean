import LinkedViews.Proofs.Delimited.Scan

/-!
Reading gives back what was written: the records unchanged, and the header up to a mark of the
encoding at the front of the text.
-/

namespace LinkedViews.Delimited

open LinkedViews.Text

variable {bytes : List UInt8}

/-- The lines of records, without a check of their lengths. -/
def lines (records : List (List String)) : List Char :=
  records.flatMap fun fields => writeRecord (fields.map String.toList)

def fieldBytes (texts : List String) : List (List UInt8) :=
  texts.map fun text => Utf8.encode text.toList

theorem writeRecords_eq_lines {expected : Nat} {records : List (List String)}
    (even : ∀ fields ∈ records, fields.length = expected) :
    writeRecords expected records = ⟨lines records, none⟩ := by
  induction records with
  | nil => rfl
  | cons fields more ih =>
      have width := even fields (by simp)
      rw [writeRecords, if_neg (not_not.mpr width),
        ih fun next member => even next (by simp [member])]
      rfl

/-- At a record of another length the writing ends, with the fields of this record left open. -/
theorem writeRecords_of_uneven {expected : Nat} {front back : List (List String)}
    {fields : List String} (even : ∀ other ∈ front, other.length = expected)
    (uneven : fields.length ≠ expected) :
    writeRecords expected (front ++ fields :: back) =
      ⟨lines front ++ openFields (fields.map String.toList),
        some (.length none fields.length expected)⟩ := by
  induction front with
  | nil =>
      rw [List.nil_append, writeRecords, if_pos uneven]
      rfl
  | cons first more ih =>
      have width := even first (by simp)
      rw [List.cons_append, writeRecords, if_neg (not_not.mpr width),
        ih fun next member => even next (by simp [member])]
      simp only [Output.behind, lines, List.flatMap_cons, List.append_assoc]

theorem write_eq_lines {header : List String} {records : List (List String)}
    (even : ∀ fields ∈ records, fields.length = header.length) :
    write header records = ⟨lines (header :: records), none⟩ := by
  have all : ∀ fields ∈ header :: records, fields.length = header.length := by
    simpa using even
  exact writeRecords_eq_lines all

theorem write_of_uneven {header fields : List String} {front back : List (List String)}
    (even : ∀ other ∈ front, other.length = header.length)
    (uneven : fields.length ≠ header.length) :
    write header (front ++ fields :: back) =
      ⟨lines (header :: front) ++ openFields (fields.map String.toList),
        some (.length none fields.length header.length)⟩ := by
  have all : ∀ other ∈ header :: front, other.length = header.length := by
    simpa using even
  exact writeRecords_of_uneven all uneven

theorem fieldsFrom_lines {records : List (List String)} (wide : ∀ fields ∈ records, fields ≠ []) :
    fieldsFrom .between [] [] (Utf8.encode (lines records)) = records.map fieldBytes := by
  induction records with
  | nil => rfl
  | cons fields more ih =>
      have bytes : Utf8.encode (lines (fields :: more)) =
          Utf8.encode (writeRecord (fields.map String.toList)) ++ Utf8.encode (lines more) := by
        simp [lines]
      have nonempty : fields.map String.toList ≠ [] := by simpa using wide fields (by simp)
      rw [bytes, fieldsFrom_writeRecord nonempty,
        ih (fun next member => wide next (by simp [member]))]
      simp [fieldBytes]

theorem decodeFields_fieldBytes (texts : List String) (index : Nat) (position : Position)
    (field : Nat) : decodeFields index position field (fieldBytes texts) = .ok texts := by
  induction texts generalizing field with
  | nil => rfl
  | cons text more ih =>
      have tail : decodeFields index position (field + 1) (fieldBytes more) = .ok more := ih _
      rw [fieldBytes, List.map_cons, decodeFields, Utf8.decode_encode]
      simp only [String.ofList_toList]
      rw [← fieldBytes, tail]
      rfl

theorem decodeRecords_fieldBytes {records : List (List String)} {raw : List RawRecord}
    {expected index : Nat} (shape : raw.map RawRecord.fields = records.map fieldBytes)
    (even : ∀ fields ∈ records, fields.length = expected) :
    decodeRecords expected index raw = .ok records := by
  induction records generalizing raw index with
  | nil =>
      obtain rfl : raw = [] := by simpa using shape
      rfl
  | cons fields more ih =>
      cases raw with
      | nil => simp at shape
      | cons record others =>
          obtain ⟨own, later⟩ := List.cons.inj shape
          have width : record.fields.length = expected := by
            simpa [own, fieldBytes] using even fields (by simp)
          rw [decodeRecords, if_neg (by simp [width]), own, decodeFields_fieldBytes]
          simp only [bind, Except.bind, ih later (fun next member => even next (by simp [member]))]
          rfl

theorem read_of_fieldBytes {header : List String} {records : List (List String)}
    (shape : (rawRecords bytes).map RawRecord.fields = (header :: records).map fieldBytes)
    (even : ∀ fields ∈ records, fields.length = header.length) :
    read bytes = .ok (header, records) := by
  cases raw : rawRecords bytes with
  | nil => simp [raw] at shape
  | cons first others =>
      rw [raw] at shape
      obtain ⟨own, later⟩ := List.cons.inj shape
      have width : first.fields.length = header.length := by simp [own, fieldBytes]
      simp only [read, raw, own, decodeFields_fieldBytes, bind, Except.bind]
      rw [← own, width, decodeRecords_fieldBytes later even]
      rfl

/-! ## The mark at the front -/

/-- The character whose bytes are taken for a mark of the encoding at the front of a text. -/
def mark : Char := '\uFEFF'

theorem encode_mark : Utf8.encode [mark] = [0xEF, 0xBB, 0xBF] := by decide

theorem rawRecords_marked (text : List Char) :
    (rawRecords (Utf8.encode (mark :: text))).map RawRecord.fields =
      fieldsFrom .between [] [] (Utf8.encode text) := by
  have bytes : Utf8.encode (mark :: text) = 0xEF :: 0xBB :: 0xBF :: Utf8.encode text := by
    rw [← List.singleton_append, Utf8.encode_append, encode_mark]
    rfl
  rw [bytes, rawRecords]
  exact scan_fields ..

theorem rawRecords_unmarked {text : List Char} (unmarked : text.head? ≠ some mark) :
    (rawRecords (Utf8.encode text)).map RawRecord.fields =
      fieldsFrom .between [] [] (Utf8.encode text) := by
  have noMark (more : List UInt8) : Utf8.encode text ≠ 0xEF :: 0xBB :: 0xBF :: more := by
    intro front
    cases text with
    | nil => simp at front
    -- The bytes of the mark would be decoded to it, whatever follows them.
    | cons c others =>
        have read : Utf8.decode (Utf8.encode [mark] ++ more) = .ok (c :: others) := by
          rw [encode_mark]
          exact (congrArg Utf8.decode front).symm.trans (Utf8.decode_encode (c :: others))
        rw [Utf8.encode_cons, Utf8.encode_nil, List.append_nil] at read
        obtain ⟨next, first⟩ := Utf8.decodeFrom_utf8EncodeChar mark 0 more
        rw [Utf8.decode, first] at read
        cases later : Utf8.decodeFrom next more with
        | error offset => simp [later, Functor.map, Except.map] at read
        | ok decoded =>
            simp only [later, Functor.map, Except.map, Except.ok.injEq, List.cons.injEq] at read
            exact unmarked (by rw [← read.1]; rfl)
  unfold rawRecords
  split
  · rename_i front
    exact absurd front (noMark _)
  · exact scan_fields ..

/-- Whether the mark at the front of a name stands at the front of the text. Quotes come before
it, so a name that has to be quoted keeps it. -/
def opensWithMark (name : String) : Prop :=
  name.toList.head? = some mark ∧ ¬ name.toList.any isSpecial = true

instance (name : String) : Decidable (opensWithMark name) :=
  inferInstanceAs (Decidable (_ ∧ _))

/-- The header as it is read back: a mark at the front of the text is no part of the first name. -/
def readHeader : List String → List String
  | [] => []
  | name :: rest => (if opensWithMark name then String.ofList name.toList.tail else name) :: rest

theorem length_readHeader (header : List String) : (readHeader header).length = header.length := by
  cases header <;> rfl

theorem readHeader_of_unmarked {header : List String}
    (unmarked : ∀ name ∈ header.head?, name.toList.head? ≠ some mark) :
    readHeader header = header := by
  cases header with
  | nil => rfl
  | cons name rest =>
      have own := unmarked name rfl
      simp [readHeader, opensWithMark, own]

theorem head_writeRecord {name : String} {rest : List String}
    (head : (writeRecord ((name :: rest).map String.toList)).head? = some mark) :
    opensWithMark name := by
  have line : ∀ front, (joinFields (name.toList :: rest.map String.toList)).head? = some front →
      front = mark → opensWithMark name := by
    rintro front found rfl
    have first : (writeField name.toList).head? = some mark := by
      cases rest with
      | nil => exact found
      | cons next more =>
          cases written : writeField name.toList with
          | nil =>
              simp only [List.map_cons, joinFields, written, List.nil_append, List.head?_cons,
                Option.some.injEq] at found
              exact absurd found (by decide)
          | cons c others =>
              simpa only [List.map_cons, joinFields, written, List.cons_append, List.head?_cons]
                using found
    unfold writeField at first
    split at first
    · simp only [List.cons_append, List.head?_cons, Option.some.injEq] at first
      exact absurd first (by decide)
    · rename_i plain
      exact ⟨first, plain⟩
  simp only [writeRecord, List.map_cons] at head
  split at head
  · simp only [List.cons_append, List.head?_cons, Option.some.injEq] at head
    exact absurd head (by decide)
  · rename_i nonempty
    cases written : joinFields (name.toList :: rest.map String.toList) with
    | nil => contradiction
    | cons c others =>
        rw [written, List.cons_append, List.head?_cons, Option.some.injEq] at head
        exact line c (by rw [written]; rfl) head

/-- Behind a mark the line of a header is the line of the header that is read back. -/
theorem writeRecord_marked {name : String} {rest : List String} (marked : opensWithMark name)
    (kept : name :: rest ≠ [String.singleton mark]) :
    writeRecord ((name :: rest).map String.toList) =
      mark :: writeRecord ((readHeader (name :: rest)).map String.toList) := by
  have ⟨head, plain⟩ := marked
  cases letters : name.toList with
  | nil => simp [letters] at head
  | cons c others =>
      obtain rfl : c = mark := by simpa [letters] using head
      have tailPlain : ¬ others.any isSpecial = true := by
        intro special
        exact plain (by rw [letters, List.any_cons, special, Bool.or_true])
      have field : writeField (mark :: others) = mark :: writeField others := by
        rw [writeField, if_neg (letters ▸ plain), writeField, if_neg tailPlain]
      have line : joinFields (name.toList :: rest.map String.toList) =
          mark :: joinFields (others :: rest.map String.toList) := by
        cases rest with
        | nil => simp only [List.map_nil, joinFields, letters, field]
        | cons next more =>
            simp only [List.map_cons, joinFields, letters, field, List.cons_append]
      have nonempty : joinFields (others :: rest.map String.toList) ≠ [] := by
        intro empty
        have single := eq_of_joinFields_eq_nil (by simp) empty
        simp only [List.cons.injEq, List.map_eq_nil_iff] at single
        apply kept
        rw [single.2, ← String.ofList_toList (s := name), letters, single.1]
        rfl
      have names : (readHeader (name :: rest)).map String.toList =
          others :: rest.map String.toList := by
        simp [readHeader, if_pos marked, letters]
      simp only [List.map_cons, writeRecord, line, names, reduceCtorEq, if_false, if_neg nonempty]
      rfl

/-- Reading what was written gives back the header and the records, unless the header consists of
nothing but the mark. -/
theorem read_write {header : List String} {records : List (List String)} (wide : header ≠ [])
    (kept : header ≠ [String.singleton mark])
    (even : ∀ fields ∈ records, fields.length = header.length) :
    ∃ text, (write header records).result = .ok text ∧
      read (Utf8.encode text.toList) = .ok (readHeader header, records) := by
  refine ⟨_, congrArg Output.result (write_eq_lines even), ?_⟩
  rw [String.toList_ofList]
  have even' : ∀ fields ∈ records, fields.length = (readHeader header).length := by
    simpa [length_readHeader] using even
  have wideAll : ∀ fields ∈ readHeader header :: records, fields ≠ [] := by
    have nonempty : 0 < header.length := List.length_pos_iff.mpr wide
    intro fields member
    rw [← List.length_pos_iff]
    rcases List.mem_cons.mp member with rfl | member
    · rwa [length_readHeader]
    · rwa [even fields member]
  apply read_of_fieldBytes _ even'
  cases header with
  | nil => contradiction
  | cons name rest =>
      by_cases marked : opensWithMark name
      · have text : lines ((name :: rest) :: records) =
            mark :: lines (readHeader (name :: rest) :: records) := by
          simp only [lines, List.flatMap_cons, writeRecord_marked marked kept, List.cons_append]
        rw [text, rawRecords_marked, fieldsFrom_lines wideAll]
      · have same : readHeader (name :: rest) = name :: rest := by simp [readHeader, marked]
        have unmarked : (lines ((name :: rest) :: records)).head? ≠ some mark := by
          intro head
          have line : (writeRecord ((name :: rest).map String.toList)).head? = some mark := by
            simpa [lines, writeRecord] using head
          exact marked (head_writeRecord line)
        rw [rawRecords_unmarked unmarked, same]
        exact fieldsFrom_lines (same ▸ wideAll)

/-- A header of nothing but the mark leaves an empty line, so that the first record is taken for the
header. -/
theorem read_write_mark {records : List (List String)}
    (even : ∀ fields ∈ records, fields.length = 1) :
    ∃ text, (write [String.singleton mark] records).result = .ok text ∧
      read (Utf8.encode text.toList) = .ok (records.headD [], records.tail) := by
  refine ⟨_, congrArg Output.result (write_eq_lines even), ?_⟩
  have text : lines ([String.singleton mark] :: records) = mark :: '\n' :: lines records := by
    have line : writeRecord [[mark]] = [mark, '\n'] := by decide
    simp [lines, line]
  have wide : ∀ fields ∈ records, fields ≠ [] := by
    rintro _ member rfl
    exact absurd (even [] member) (by decide)
  have feed : Utf8.encode ('\n' :: lines records) = lineFeed :: Utf8.encode (lines records) := rfl
  have shape := rawRecords_marked ('\n' :: lines records)
  rw [feed, fieldsFrom_between_lineFeed, fieldsFrom_lines wide] at shape
  rw [String.toList_ofList, text]
  cases records with
  | nil =>
      have none := List.map_eq_nil_iff.mp shape
      rw [read, none]
      rfl
  | cons first others =>
      refine read_of_fieldBytes shape fun fields member => ?_
      exact (even fields (List.mem_cons_of_mem _ member)).trans (even first List.mem_cons_self).symm

theorem length_of_decodeFields {index field : Nat} {position : Position} {raw : List (List UInt8)}
    {texts : List String} (read : decodeFields index position field raw = .ok texts) :
    texts.length = raw.length := by
  induction raw generalizing field texts with
  | nil =>
      obtain rfl : [] = texts := Except.ok.inj read
      rfl
  | cons bytes others ih =>
      rw [decodeFields] at read
      cases own : Utf8.decode bytes with
      | error offset => simp [own] at read
      | ok text =>
          cases later : decodeFields index position (field + 1) others with
          | error fault => simp [own, later, Functor.map, Except.map] at read
          | ok more =>
              obtain rfl : String.ofList text :: more = texts := by
                simpa [own, later, Functor.map, Except.map] using read
              simp [ih later]

/-- Every record that has been read is as long as its header. -/
theorem length_of_decodeRecords {expected index : Nat} {raw : List RawRecord}
    {records : List (List String)} (read : decodeRecords expected index raw = .ok records) :
    ∀ fields ∈ records, fields.length = expected := by
  induction raw generalizing index records with
  | nil =>
      obtain rfl : [] = records := Except.ok.inj read
      simp
  | cons record others ih =>
      rw [decodeRecords] at read
      split at read
      · contradiction
      · rename_i width
        cases own : decodeFields index record.position 0 record.fields with
        | error fault => simp [own, bind, Except.bind] at read
        | ok fields =>
            cases later : decodeRecords expected (index + 1) others with
            | error fault => simp [own, later, bind, Except.bind, Functor.map, Except.map] at read
            | ok more =>
                obtain rfl : fields :: more = records := by
                  simpa [own, later, bind, Except.bind, Functor.map, Except.map] using read
                have length := length_of_decodeFields own
                rintro next (_ | ⟨_, member⟩)
                · omega
                · exact ih later next member

theorem read_cases {header : List String} {records : List (List String)}
    (done : read bytes = .ok (header, records)) :
    (rawRecords bytes = [] ∧ header = [] ∧ records = []) ∨
      ∃ first others, rawRecords bytes = first :: others ∧
        decodeFields 0 first.position 0 first.fields = .ok header ∧
        decodeRecords first.fields.length 1 others = .ok records := by
  cases raw : rawRecords bytes with
  | nil => exact .inl (by simpa [read, raw, eq_comm] using done)
  | cons first others =>
      cases own : decodeFields 0 first.position 0 first.fields with
      | error fault => simp [read, raw, own, bind, Except.bind] at done
      | ok names =>
          cases later : decodeRecords first.fields.length 1 others with
          | error fault => simp [read, raw, own, later, bind, Except.bind] at done
          | ok more =>
              obtain ⟨rfl, rfl⟩ : names = header ∧ more = records := by
                simpa [read, raw, own, later, bind, Except.bind, pure, Except.pure] using done
              exact .inr ⟨first, others, rfl, own, later⟩

theorem length_of_read {header : List String} {records : List (List String)}
    (done : read bytes = .ok (header, records)) :
    ∀ fields ∈ records, fields.length = header.length := by
  obtain ⟨_, _, rfl⟩ | ⟨first, others, _, own, later⟩ := read_cases done
  · simp
  · rw [length_of_decodeFields own]
    exact length_of_decodeRecords later

/-- Only where there is no record at all is the header empty. -/
theorem read_of_header_nil {records : List (List String)} (done : read bytes = .ok ([], records)) :
    records = [] := by
  obtain ⟨_, _, none⟩ | ⟨first, others, raw, own, _⟩ := read_cases done
  · exact none
  · have member : first ∈ rawRecords bytes := raw ▸ List.mem_cons_self
    have wide : first.fields ≠ [] := by
      unfold rawRecords at member
      split at member <;> exact fields_ne_nil_of_mem_scan member
    exact absurd (List.length_eq_zero_iff.mp (length_of_decodeFields own).symm) wide

end LinkedViews.Delimited
