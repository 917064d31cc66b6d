import LinkedViews.Delimited.Writer
import LinkedViews.Proofs.Text.Utf8

/-!
What a scan makes of written records. The fields it collects do not depend on the positions it
counts, so they are followed on their own, byte by byte: a field is read as it was before it was
quoted, and a record as its fields.
-/

namespace LinkedViews.Delimited

open LinkedViews.Text

variable {state : State} {field : List UInt8} {fields : List (List UInt8)}
  {byte : UInt8} {bytes rest : List UInt8}

-- The equations are made here once, not by each of the proofs that open the scan.
attribute [local grind =] scan

/-- The fields of the records that a scan collects. -/
def fieldsFrom (state : State) (field : List UInt8) (fields : List (List UInt8))
    (bytes : List UInt8) : List (List (List UInt8)) :=
  (scan state .start .start field fields bytes).map RawRecord.fields

theorem scan_fields_congr (began here began' here' : Position) :
    (scan state began here field fields bytes).map RawRecord.fields =
      (scan state began' here' field fields bytes).map RawRecord.fields := by
  -- Each step passes the positions on, and into records whose positions are dropped.
  induction bytes generalizing state began here began' here' field fields with
  | nil => cases state <;> rfl
  | cons byte rest ih =>
      simp only [scan]
      split
      · split <;> exact ih ..
      · split
        · split
          · exact ih ..
          · simp only [List.map_cons]
            exact congrArg _ (ih ..)
        · repeat' split
          all_goals exact ih ..

theorem scan_fields (began here : Position) :
    (scan state began here field fields bytes).map RawRecord.fields =
      fieldsFrom state field fields bytes := scan_fields_congr ..

/-- No record is without a field. -/
theorem fields_ne_nil_of_mem_scan {began here : Position} {record : RawRecord}
    (member : record ∈ scan state began here field fields bytes) : record.fields ≠ [] := by
  induction bytes generalizing state began here field fields with
  | nil => cases state <;> simp_all [scan]
  | cons byte rest ih =>
      simp only [scan] at member
      split at member
      · split at member <;> exact ih member
      · split at member
        · split at member
          · exact ih member
          · rcases List.mem_cons.mp member with rfl | later
            · simp
            · exact ih later
        · repeat' split at member
          all_goals exact ih member

theorem fieldsFrom_quoted_byte (different : byte ≠ quote) :
    fieldsFrom .quoted field fields (byte :: rest) =
      fieldsFrom .quoted (byte :: field) fields rest := by
  simp only [fieldsFrom, scan, if_true, if_neg different]
  exact scan_fields ..

theorem fieldsFrom_quoted_quote :
    fieldsFrom .quoted field fields (quote :: rest) = fieldsFrom .closed field fields rest := by
  simp only [fieldsFrom, scan, if_true]
  exact scan_fields ..

theorem fieldsFrom_closed_quote :
    fieldsFrom .closed field fields (quote :: rest) =
      fieldsFrom .quoted (quote :: field) fields rest :=
  scan_fields .start (.advance .start quote)

theorem fieldsFrom_fieldStart_quote :
    fieldsFrom .fieldStart field fields (quote :: rest) = fieldsFrom .quoted field fields rest :=
  scan_fields .start (.advance .start quote)

theorem fieldsFrom_comma (outside : state ≠ .quoted) :
    fieldsFrom state field fields (comma :: rest) =
      fieldsFrom .fieldStart [] (field.reverse :: fields) rest := by
  simp only [fieldsFrom, scan, if_neg outside]
  exact scan_fields ..

theorem fieldsFrom_lineFeed (outside : state ≠ .quoted) (begun : state ≠ .between) :
    fieldsFrom state field fields (lineFeed :: rest) =
      (field.reverse :: fields).reverse :: fieldsFrom .between [] [] rest := by
  have ends : isLineEnd lineFeed = true := rfl
  simp only [fieldsFrom, scan, if_neg outside, if_neg begun, if_pos ends, List.map_cons]
  exact congrArg _ (scan_fields ..)

theorem fieldsFrom_between_lineFeed :
    fieldsFrom .between [] [] (lineFeed :: rest) = fieldsFrom .between [] [] rest :=
  scan_fields .start (.advance .start lineFeed)

/-- A byte without a meaning between fields. -/
def Ordinary (byte : UInt8) : Prop :=
  byte ≠ comma ∧ byte ≠ quote ∧ byte ≠ lineFeed ∧ byte ≠ carriageReturn

theorem fieldsFrom_ordinary (outside : state ≠ .quoted) (ordinary : Ordinary byte) :
    fieldsFrom state field fields (byte :: rest) =
      fieldsFrom .plain (byte :: field) fields rest := by
  obtain ⟨noComma, noQuote, noFeed, noReturn⟩ := ordinary
  have inside : ¬ isLineEnd byte = true := by simp [isLineEnd, noFeed, noReturn]
  simp only [fieldsFrom, scan, if_neg outside, if_neg inside, if_neg noComma, noQuote, false_and,
    if_false]
  exact scan_fields ..

theorem fieldsFrom_between (begins : isLineEnd byte = false) :
    fieldsFrom .between field fields (byte :: rest) =
      fieldsFrom .fieldStart field fields (byte :: rest) := by
  simp [fieldsFrom, scan, begins]

theorem ordinary_of_mem {c : Char} (plain : isSpecial c = false)
    (member : byte ∈ String.utf8EncodeChar c) : Ordinary byte := by
  simp only [isSpecial, Bool.or_eq_false_iff, decide_eq_false_iff_not] at plain
  obtain ⟨⟨⟨noComma, noQuote⟩, noFeed⟩, noReturn⟩ := plain
  refine ⟨?_, ?_, ?_, ?_⟩ <;> rintro rfl
  · exact noComma (Utf8.eq_of_mem_utf8EncodeChar ',' (by decide) member)
  · exact noQuote (Utf8.eq_of_mem_utf8EncodeChar '"' (by decide) member)
  · exact noFeed (Utf8.eq_of_mem_utf8EncodeChar '\n' (by decide) member)
  · exact noReturn (Utf8.eq_of_mem_utf8EncodeChar '\r' (by decide) member)

/-- A run of ordinary bytes is taken into the field as it stands. -/
theorem fieldsFrom_ordinary_run (outside : state ≠ .quoted)
    (ordinary : ∀ byte ∈ bytes, Ordinary byte) :
    fieldsFrom state field fields (bytes ++ rest) =
      fieldsFrom (if bytes = [] then state else .plain) (bytes.reverse ++ field) fields rest := by
  induction bytes generalizing state field with
  | nil => rfl
  | cons byte more ih =>
      rw [List.cons_append, fieldsFrom_ordinary outside (ordinary byte (by simp)),
        ih (by decide) (fun next member => ordinary next (by simp [member]))]
      simp

theorem fieldsFrom_quoted_run (inside : ∀ byte ∈ bytes, byte ≠ quote) :
    fieldsFrom .quoted field fields (bytes ++ rest) =
      fieldsFrom .quoted (bytes.reverse ++ field) fields rest := by
  induction bytes generalizing field with
  | nil => rfl
  | cons byte more ih =>
      rw [List.cons_append, fieldsFrom_quoted_byte (inside byte (by simp)),
        ih (fun next member => inside next (by simp [member]))]
      simp

/-- Between its quotes a field is read as it was before its quotes were doubled. -/
theorem fieldsFrom_doubleQuotes (text : List Char) :
    fieldsFrom .quoted field fields (Utf8.encode (doubleQuotes text) ++ rest) =
      fieldsFrom .quoted ((Utf8.encode text).reverse ++ field) fields rest := by
  induction text generalizing field with
  | nil => rfl
  | cons c more ih =>
      by_cases quoted : c = '"'
      -- The first quote closes the field, and the second one opens it again.
      · subst quoted
        have bytes : Utf8.encode (doubleQuotes ('"' :: more)) =
            quote :: quote :: Utf8.encode (doubleQuotes more) := rfl
        have own : Utf8.encode ('"' :: more) = quote :: Utf8.encode more := rfl
        rw [bytes, own, List.cons_append, List.cons_append, fieldsFrom_quoted_quote,
          fieldsFrom_closed_quote, ih]
        simp
      · have bytes : doubleQuotes (c :: more) = c :: doubleQuotes more := by
          simp [doubleQuotes, quoted]
        have inside : ∀ byte ∈ String.utf8EncodeChar c, byte ≠ quote := by
          rintro _ member rfl
          exact quoted (Utf8.eq_of_mem_utf8EncodeChar '"' (by decide) member)
        rw [bytes, Utf8.encode_cons, Utf8.encode_cons, List.append_assoc,
          fieldsFrom_quoted_run inside, ih]
        simp

/-- Whether a field was quoted or not, all of it has been read at its end. -/
theorem fieldsFrom_writeField (fields : List (List UInt8)) (rest : List UInt8) (text : List Char) :
    ∃ after, after ≠ .quoted ∧ after ≠ .between ∧
      fieldsFrom .fieldStart [] fields (Utf8.encode (writeField text) ++ rest) =
        fieldsFrom after (Utf8.encode text).reverse fields rest := by
  by_cases special : text.any isSpecial = true
  · refine ⟨.closed, by decide, by decide, ?_⟩
    have bytes : Utf8.encode (writeField text) ++ rest =
        quote :: (Utf8.encode (doubleQuotes text) ++ quote :: rest) := by
      simp only [writeField, if_pos special, Utf8.encode_cons, Utf8.encode_append,
        List.cons_append, List.append_assoc]
      rfl
    rw [bytes, fieldsFrom_fieldStart_quote, fieldsFrom_doubleQuotes, fieldsFrom_quoted_quote,
      List.append_nil]
  · have ordinary : ∀ byte ∈ Utf8.encode text, Ordinary byte := by
      intro byte member
      obtain ⟨c, inText, inBytes⟩ := List.mem_flatMap.mp member
      have plain : ¬ isSpecial c = true := fun own =>
        special (List.any_eq_true.mpr ⟨c, inText, own⟩)
      exact ordinary_of_mem (by simpa using plain) inBytes
    refine ⟨if Utf8.encode text = [] then .fieldStart else .plain, ?_, ?_, ?_⟩
    · split <;> decide
    · split <;> decide
    · rw [writeField, if_neg special, fieldsFrom_ordinary_run (by decide) ordinary, List.append_nil]

theorem fieldsFrom_joinFields {texts : List (List Char)} (nonempty : texts ≠ []) :
    fieldsFrom .fieldStart [] fields (Utf8.encode (joinFields texts) ++ lineFeed :: rest) =
      (fields.reverse ++ texts.map Utf8.encode) :: fieldsFrom .between [] [] rest := by
  induction texts generalizing fields with
  | nil => contradiction
  | cons text more ih =>
      cases more with
      | nil =>
          obtain ⟨after, outside, begun, read⟩ :=
            fieldsFrom_writeField fields (lineFeed :: rest) text
          rw [joinFields, read, fieldsFrom_lineFeed outside begun]
          simp
      | cons next more =>
          have bytes : Utf8.encode (joinFields (text :: next :: more)) =
              Utf8.encode (writeField text) ++
                comma :: Utf8.encode (joinFields (next :: more)) := by
            simp only [joinFields, Utf8.encode_append, Utf8.encode_cons]
            rfl
          obtain ⟨after, outside, _, read⟩ := fieldsFrom_writeField fields
            (comma :: (Utf8.encode (joinFields (next :: more)) ++ lineFeed :: rest)) text
          rw [bytes, List.append_assoc, List.cons_append, read, fieldsFrom_comma outside,
            ih (by simp)]
          simp

theorem writeField_eq_nil {text : List Char} : writeField text = [] ↔ text = [] := by
  unfold writeField
  split
  · rename_i special
    constructor
    · intro empty
      simp at empty
    · rintro rfl
      simp at special
  · exact Iff.rfl

/-- Only a single empty field leaves its line empty. -/
theorem eq_of_joinFields_eq_nil {texts : List (List Char)} (nonempty : texts ≠ [])
    (empty : joinFields texts = []) : texts = [[]] := by
  cases texts with
  | nil => contradiction
  | cons text more =>
      cases more with
      | nil => rw [writeField_eq_nil.mp empty]
      | cons next more => simp [joinFields] at empty

theorem head_writeField {text : List Char} {c : Char} (head : (writeField text).head? = some c) :
    c ≠ '\n' ∧ c ≠ '\r' := by
  unfold writeField at head
  split at head
  · simp only [List.cons_append, List.head?_cons, Option.some.injEq] at head
    subst head
    decide
  · rename_i plain
    constructor <;> rintro rfl <;>
      exact plain (List.any_eq_true.mpr ⟨_, List.mem_of_mem_head? head, by decide⟩)

theorem head_joinFields {texts : List (List Char)} {c : Char}
    (head : (joinFields texts).head? = some c) : c ≠ '\n' ∧ c ≠ '\r' := by
  match texts with
  | [] => simp [joinFields] at head
  | [text] => exact head_writeField head
  | text :: next :: more =>
      cases written : writeField text with
      | nil =>
          simp only [joinFields, written, List.nil_append, List.head?_cons,
            Option.some.injEq] at head
          subst head
          decide
      | cons first others =>
          simp only [joinFields, written, List.cons_append, List.head?_cons,
            Option.some.injEq] at head
          subst head
          have own : (writeField text).head? = some first := by rw [written]; rfl
          exact head_writeField own

/-- A record is begun by the first byte of its line, which is no line ending. -/
theorem fieldsFrom_between_joinFields {texts : List (List Char)}
    (nonempty : joinFields texts ≠ []) :
    fieldsFrom .between [] [] (Utf8.encode (joinFields texts) ++ rest) =
      fieldsFrom .fieldStart [] [] (Utf8.encode (joinFields texts) ++ rest) := by
  cases line : joinFields texts with
  | nil => contradiction
  | cons c more =>
      have head : (joinFields texts).head? = some c := by rw [line]; rfl
      obtain ⟨noFeed, noReturn⟩ := head_joinFields head
      cases bytes : String.utf8EncodeChar c with
      | nil => exact absurd bytes String.utf8EncodeChar_ne_nil
      | cons byte others =>
          have member : byte ∈ String.utf8EncodeChar c := by simp [bytes]
          have begins : isLineEnd byte = false := by
            simp only [isLineEnd, Bool.or_eq_false_iff, decide_eq_false_iff_not]
            constructor <;> rintro rfl
            · exact noFeed (Utf8.eq_of_mem_utf8EncodeChar '\n' (by decide) member)
            · exact noReturn (Utf8.eq_of_mem_utf8EncodeChar '\r' (by decide) member)
          rw [Utf8.encode_cons, bytes, List.cons_append, List.cons_append]
          exact fieldsFrom_between begins

theorem fieldsFrom_writeRecord {texts : List (List Char)} (nonempty : texts ≠ []) :
    fieldsFrom .between [] [] (Utf8.encode (writeRecord texts) ++ rest) =
      texts.map Utf8.encode :: fieldsFrom .between [] [] rest := by
  by_cases empty : joinFields texts = []
  · rw [eq_of_joinFields_eq_nil nonempty empty]
    have bytes : Utf8.encode (writeRecord [[]]) ++ rest = quote :: quote :: lineFeed :: rest := rfl
    rw [bytes, fieldsFrom_between rfl, fieldsFrom_fieldStart_quote, fieldsFrom_quoted_quote,
      fieldsFrom_lineFeed (by decide) (by decide)]
    rfl
  · have bytes : Utf8.encode (writeRecord texts) ++ rest =
        Utf8.encode (joinFields texts) ++ lineFeed :: rest := by
      simp only [writeRecord, if_neg empty, Utf8.encode_append, List.append_assoc]
      rfl
    rw [bytes, fieldsFrom_between_joinFields empty, fieldsFrom_joinFields nonempty]
    rfl

end LinkedViews.Delimited
