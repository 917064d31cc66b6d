import LinkedViews.Proofs.Calendar.Timestamp
import LinkedViews.Table.Export
import LinkedViews.Table.Import

/-!
What a column becomes when it is written and read again. The kind of a column is looked for in its
texts only, so the form in which a cell is written has to be read by the kind of its column, and by
no kind that is looked for before that one.
-/

namespace LinkedViews

namespace ColumnKind

variable {kind earlier : ColumnKind} {texts : List String} {text : String} {cell : Cell}

/-- The text that is written for the cell of a text. -/
def rewrite (kind : ColumnKind) (text : String) : String :=
  (Column.labelCell ⟨"", kind⟩ (kind.cell text)).display

/-- The labels that have a code. No more than `UInt32.size` of them have a code of their own. -/
def labels : ColumnKind → List String
  | categorical labels => labels
  | _ => []

@[simp] theorem cell_empty (kind : ColumnKind) : kind.cell "" = .null := if_pos rfl

@[simp] theorem rewrite_empty (kind : ColumnKind) : kind.rewrite "" = "" := by
  rw [rewrite, cell_empty]
  rfl

theorem mem_present : text ∈ present texts ↔ text ∈ texts ∧ text ≠ "" := by
  simp [present]

theorem exists_source (member : text ∈ texts.map kind.rewrite) (shown : text ≠ "") :
    ∃ source ∈ present texts, kind.rewrite source = text := by
  obtain ⟨source, inside, rfl⟩ := List.mem_map.mp member
  refine ⟨source, mem_present.mpr ⟨inside, ?_⟩, rfl⟩
  rintro rfl
  exact shown (rewrite_empty kind)

/-! ## The kind that is found -/

theorem present_map {f : String → String} (empty : f "" = "")
    (nonempty : ∀ text ∈ present texts, f text ≠ "") :
    present (texts.map f) = (present texts).map f := by
  induction texts with
  | nil => rfl
  | cons text rest ih =>
      have later : present (rest.map f) = (present rest).map f :=
        ih fun other member => nonempty other (by
          rw [mem_present] at member ⊢
          exact ⟨List.mem_cons_of_mem _ member.1, member.2⟩)
      by_cases blank : text = ""
      · subst blank
        simpa [present, empty] using later
      · have shown : f text ≠ "" := nonempty text (by simp [mem_present, blank])
        simpa [present, blank, shown] using later

theorem infer_of_find (shown : present texts ≠ [])
    (found : inferred.find? (fun kind => kind.reads (present texts)) = some kind) :
    infer texts = kind := by
  rw [infer, if_neg shown, found]
  rfl

theorem find_of_infer (listed : kind ∈ inferred) (known : infer texts = kind) :
    present texts ≠ [] ∧
      inferred.find? (fun kind => kind.reads (present texts)) = some kind := by
  have notText : kind ≠ .text := by
    rintro rfl
    exact absurd listed (by decide)
  unfold infer at known
  split at known
  · exact absurd known.symm notText
  · rename_i shown
    refine ⟨shown, ?_⟩
    cases found : inferred.find? fun kind => kind.reads (present texts) with
    | none => simp [found, notText.symm] at known
    | some other => simpa [found] using known

theorem infer_ne_categorical (labels : List String) : infer texts ≠ .categorical labels := by
  unfold infer
  split
  · exact ColumnKind.noConfusion
  · cases found : inferred.find? fun kind => kind.reads (present texts) with
    | none => exact ColumnKind.noConfusion
    | some other =>
        have listed := List.mem_of_find?_eq_some found
        rintro rfl
        simp [inferred] at listed

theorem ofTexts_of_not_categorical {categorical : List String} {name : String}
    (known : ofTexts categorical name texts = kind) (plain : ∀ labels, kind ≠ .categorical labels) :
    name ∉ categorical ∧ infer texts = kind := by
  unfold ofTexts at known
  split at known
  · exact absurd known.symm (plain _)
  · exact ⟨‹_›, known⟩

/-- A kind is found again in texts that it reads and no kind before it does. -/
theorem infer_map {f : String → String} (listed : kind ∈ inferred) (known : infer texts = kind)
    (empty : f "" = "")
    (own : ∀ text ∈ present texts, ((kind.readCell? (f text)).isSome ∧ f text ≠ ""))
    (others : ∀ text ∈ present texts, ∀ earlier ∈ inferred.takeWhile (· ≠ kind),
      earlier.readCell? (f text) = none) :
    infer (texts.map f) = kind := by
  obtain ⟨shown, _⟩ := find_of_infer listed known
  have rewritten := present_map empty fun text member => (own text member).2
  have reads : kind.reads (present (texts.map f)) = true := by
    rw [rewritten, ColumnKind.reads, List.all_map]
    exact List.all_eq_true.mpr fun text member => (own text member).1
  -- A kind before it fails on the first text already.
  obtain ⟨first, rest, firstText⟩ := List.exists_cons_of_ne_nil shown
  have misses : ∀ earlier ∈ inferred.takeWhile (· ≠ kind),
      earlier.reads (present (texts.map f)) = false := by
    intro earlier member
    have unread := others first (by simp [firstText]) earlier member
    simp [rewritten, ColumnKind.reads, firstText, unread]
  have order : inferred = inferred.takeWhile (· ≠ kind) ++ inferred.dropWhile (· ≠ kind) :=
    List.takeWhile_append_dropWhile.symm
  have found : inferred.dropWhile (· ≠ kind) = kind :: (inferred.dropWhile (· ≠ kind)).tail := by
    simp only [inferred, List.mem_cons, List.not_mem_nil, or_false] at listed
    rcases listed with rfl | rfl | rfl | rfl <;> rfl
  refine infer_of_find (by simp [rewritten, shown]) ?_
  rw [order, List.find?_append, List.find?_eq_none.mpr (by simpa using misses), found]
  simp [reads]

/-! ## Written cells -/

theorem readCell?_empty (listed : kind ∈ inferred) : kind.readCell? "" = none := by
  simp only [inferred, List.mem_cons, List.not_mem_nil, or_false] at listed
  rcases listed with rfl | rfl | rfl | rfl <;> decide

theorem labelCell_eq_self {name : String} (plain : ∀ labels, kind ≠ .categorical labels) :
    Column.labelCell ⟨name, kind⟩ cell = cell := by
  cases kind with
  | categorical labels => exact absurd rfl (plain labels)
  | _ => cases cell <;> rfl

theorem rewrite_eq_display (plain : ∀ labels, kind ≠ .categorical labels) :
    kind.rewrite text = (kind.cell text).display := by
  rw [rewrite, labelCell_eq_self plain]

theorem readBoolean?_eq_none {c : Char} (member : c ∈ text.toList)
    (strange : c ∉ "trueTRUEfalseFALSE".toList) : readBoolean? text = none := by
  unfold readBoolean?
  split
  · rename_i word
    simp only [List.mem_cons, List.not_mem_nil, or_false] at word
    rcases word with rfl | rfl | rfl <;> simp_all
  · split
    · rename_i word
      simp only [List.mem_cons, List.not_mem_nil, or_false] at word
      rcases word with rfl | rfl | rfl <;> simp_all
    · rfl

/-- What is written for a cell other than a real is read as that cell, and by no kind that is
looked for before its own. -/
theorem readCell?_display (listed : kind ∈ inferred) (exact : kind ≠ .real)
    (read : kind.readCell? text = some cell)
    (writable : ∀ millis, cell = .timestamp millis → Timestamp.isWritable millis.toInt = true) :
    kind.readCell? cell.display = some cell ∧
      ∀ earlier ∈ inferred.takeWhile (· ≠ kind), earlier.readCell? cell.display = none := by
  simp only [inferred, List.mem_cons, List.not_mem_nil, or_false] at listed
  rcases listed with rfl | rfl | rfl | rfl
  · obtain ⟨value, _, rfl⟩ := Option.map_eq_some_iff.mp read
    refine ⟨?_, by simp [inferred]⟩
    simp [readCell?, Cell.display, Numeral.readInt64?_ofInt]
  · exact absurd rfl exact
  · obtain ⟨value, _, rfl⟩ := Option.map_eq_some_iff.mp read
    cases value <;> decide
  · obtain ⟨instant, _, rfl⟩ := Option.map_eq_some_iff.mp read
    generalize Int64.ofInt instant = millis at writable
    have date := writable millis rfl
    refine ⟨?_, ?_⟩
    · simp [readCell?, Cell.display, Timestamp.read?_format date]
    · have noBoolean := readBoolean?_eq_none (Timestamp.colon_mem_format date) (by decide)
      intro earlier member
      have before : inferred.takeWhile (· ≠ timestamp) = [integer, real, boolean] := rfl
      rw [before] at member
      simp only [List.mem_cons, List.not_mem_nil, or_false] at member
      rcases member with rfl | rfl | rfl
      · simp [readCell?, Cell.display, Timestamp.readInt64?_format date]
      · simp [readCell?, Cell.display, Timestamp.readBinary64?_format date]
      · simp [readCell?, Cell.display, noBoolean]

/-! ## Labels -/

theorem nodup_eraseDups (texts : List String) : texts.eraseDups.Nodup := by
  generalize size : texts.length = n
  induction n using Nat.strongRecOn generalizing texts with
  | _ n ih =>
      cases texts with
      | nil => exact List.nodup_nil
      | cons text rest =>
          have shorter : (rest.filter fun other => !other == text).length < n := by
            have bound := List.length_filter_le (fun other => !other == text) rest
            rw [List.length_cons] at size
            omega
          rw [List.eraseDups_cons, List.nodup_cons]
          exact ⟨by simp, ih _ shorter _ rfl⟩

theorem mem_labelsOf : text ∈ labelsOf texts ↔ text ∈ texts ∧ text ≠ "" := by
  rw [labelsOf, List.mem_eraseDups, mem_present]

theorem cell_categorical {labels : List String} (shown : text ≠ "") (member : text ∈ labels) :
    ∃ code, labels[code]? = some text ∧
      (categorical labels).cell text = .category (UInt32.ofNat code) := by
  cases position : labels.idxOf? text with
  | none => exact absurd member (List.idxOf?_eq_none_iff.mp position)
  | some code =>
      obtain ⟨bound, label, _⟩ := List.idxOf?_eq_some_iff.mp position
      refine ⟨code, by rw [List.getElem?_eq_getElem bound, label], ?_⟩
      simp [cell, shown, readCell?, position]

theorem rewrite_of_cell {labels : List String} {code : UInt32}
    (coded : (categorical labels).cell text = .category code) :
    (categorical labels).rewrite text = labels[code.toNat]?.getD "" := by
  rw [rewrite, coded]
  unfold Column.labelCell
  cases label : labels[code.toNat]? with
  | none => simp [label, Cell.display]
  | some shown => simp [label, Cell.display]

/-- As long as all codes are different, a label is written in place of its code. -/
theorem rewrite_label {labels : List String} (fit : labels.length ≤ UInt32.size)
    (member : text ∈ labels) : (categorical labels).rewrite text = text := by
  by_cases blank : text = ""
  · rw [blank, rewrite_empty]
  · obtain ⟨code, label, coded⟩ := cell_categorical blank member
    have bound : code < UInt32.size :=
      Nat.lt_of_lt_of_le (List.getElem?_eq_some_iff.mp label).1 fit
    rw [rewrite_of_cell coded, UInt32.toNat_ofNat_of_lt' bound, label]
    rfl

/-- In any case the label that is written is one of those with a code of their own. -/
theorem rewrite_mem_take {labels : List String} (member : text ∈ labels)
    (shown : (categorical labels).rewrite text ≠ "") :
    (categorical labels).rewrite text ∈ labels.take UInt32.size := by
  have nonempty : text ≠ "" := by
    rintro rfl
    exact shown (rewrite_empty _)
  obtain ⟨code, _, coded⟩ := cell_categorical nonempty member
  rw [rewrite_of_cell coded] at shown ⊢
  cases label : labels[(UInt32.ofNat code).toNat]? with
  | none =>
      rw [label] at shown
      exact absurd rfl shown
  | some other =>
      have bound : (UInt32.ofNat code).toNat < UInt32.size := UInt32.toNat_lt_size _
      rw [Option.getD_some]
      exact List.mem_of_getElem? (i := (UInt32.ofNat code).toNat)
        (by rw [List.getElem?_take_of_lt bound, label])

/-- What is written for the labels has a code each: it is all among the first labels. -/
theorem length_labelsOf_rewrite (texts : List String) :
    (labelsOf (texts.map (categorical (labelsOf texts)).rewrite)).length ≤ UInt32.size := by
  have within : labelsOf (texts.map (categorical (labelsOf texts)).rewrite) ⊆
      (labelsOf texts).take UInt32.size := by
    intro label member
    obtain ⟨inside, shown⟩ := mem_labelsOf.mp member
    obtain ⟨text, own, rfl⟩ := exists_source inside shown
    exact rewrite_mem_take (mem_labelsOf.mpr (mem_present.mp own)) shown
  have bound := (nodup_eraseDups (present _)).length_le_of_subset within
  rw [List.length_take] at bound
  exact Nat.le_trans bound (Nat.min_le_left ..)

theorem labelsOf_rewrite_ne (wrapped : UInt32.size < (labelsOf texts).length) :
    labelsOf (texts.map (categorical (labelsOf texts)).rewrite) ≠ labelsOf texts := by
  intro same
  have bound := length_labelsOf_rewrite texts
  rw [same] at bound
  omega

/-! ## Columns -/

theorem map_eq_self {f : String → String} (same : ∀ text ∈ texts, f text = text) :
    texts.map f = texts := by
  simpa using List.map_congr_left same

theorem rewrite_text (text : String) : ColumnKind.text.rewrite text = text := by
  by_cases blank : text = "" <;>
    simp [rewrite_eq_display, ColumnKind.cell, blank, readCell?, Cell.display]

theorem ofTexts_rewrite_labels {categorical : List String} {name : String}
    (asked : name ∈ categorical) :
    (ofTexts categorical name (texts.map (.categorical (labelsOf texts) : ColumnKind).rewrite) =
        .categorical (labelsOf texts) ∧
      ∀ text ∈ texts, (.categorical (labelsOf texts) : ColumnKind).cell
          ((.categorical (labelsOf texts) : ColumnKind).rewrite text) =
        (.categorical (labelsOf texts) : ColumnKind).cell text) ↔
      (labelsOf texts).length ≤ UInt32.size := by
  by_cases fit : (labelsOf texts).length ≤ UInt32.size
  · have same : ∀ text ∈ texts,
        (.categorical (labelsOf texts) : ColumnKind).rewrite text = text := by
      intro text member
      by_cases blank : text = ""
      · rw [blank, rewrite_empty]
      · exact rewrite_label fit (mem_labelsOf.mpr ⟨member, blank⟩)
    refine iff_of_true ⟨?_, fun text member => by rw [same text member]⟩ fit
    rw [map_eq_self same]
    exact if_pos asked
  · refine iff_of_false (fun ⟨again, _⟩ => ?_) fit
    rw [ofTexts, if_pos asked, ColumnKind.categorical.injEq] at again
    exact labelsOf_rewrite_ne (Nat.lt_of_not_le fit) again

/-- A kind that was found for a column's texts, other than that of reals, is found again. -/
theorem infer_rewrite (listed : kind ∈ inferred) (exact : kind ≠ .real)
    (found : infer texts = kind)
    (writable : ∀ text ∈ texts, ∀ millis, kind.cell text = .timestamp millis →
      Timestamp.isWritable millis.toInt = true) :
    infer (texts.map kind.rewrite) = kind ∧
      ∀ text ∈ texts, kind.cell (kind.rewrite text) = kind.cell text := by
  have plain : ∀ labels, kind ≠ .categorical labels := fun labels same =>
    infer_ne_categorical labels (found.trans same)
  have reads := List.find?_some (find_of_infer listed found).2
  have written : ∀ text ∈ present texts, ∃ own, kind.cell text = own ∧
      kind.rewrite text = own.display ∧ own.display ≠ "" ∧
      kind.readCell? own.display = some own ∧
      ∀ earlier ∈ inferred.takeWhile (· ≠ kind), earlier.readCell? own.display = none := by
    intro text member
    obtain ⟨inside, shown⟩ := mem_present.mp member
    obtain ⟨own, read⟩ := Option.isSome_iff_exists.mp (List.all_eq_true.mp reads text member)
    have value : kind.cell text = own := by simp [ColumnKind.cell, shown, read]
    obtain ⟨again, others⟩ := readCell?_display listed exact read fun millis stamp =>
      writable text inside millis (value.trans stamp)
    refine ⟨own, value, by rw [rewrite_eq_display plain, value], fun blank => ?_, again, others⟩
    rw [blank, readCell?_empty listed] at again
    contradiction
  refine ⟨infer_map listed found (rewrite_empty kind) ?_ ?_, ?_⟩
  · intro text member
    obtain ⟨own, _, shown, nonempty, again, _⟩ := written text member
    rw [shown]
    exact ⟨by simp [again], nonempty⟩
  · intro text member earlier before
    obtain ⟨own, _, shown, _, _, others⟩ := written text member
    rw [shown]
    exact others earlier before
  · intro text member
    by_cases blank : text = ""
    · rw [blank, rewrite_empty]
    · obtain ⟨own, value, shown, nonempty, again, _⟩ :=
        written text (mem_present.mpr ⟨member, blank⟩)
      rw [shown, value]
      simp [ColumnKind.cell, nonempty, again]

/-- A column other than one of reals is written and read again as the column it was, with the cells
it had, if and only if there are no more labels than codes. -/
theorem ofTexts_rewrite {categorical : List String} {name : String}
    (known : ofTexts categorical name texts = kind) (exact : kind ≠ .real)
    (writable : ∀ text ∈ texts, ∀ millis, kind.cell text = .timestamp millis →
      Timestamp.isWritable millis.toInt = true) :
    (ofTexts categorical name (texts.map kind.rewrite) = kind ∧
      ∀ text ∈ texts, kind.cell (kind.rewrite text) = kind.cell text) ↔
      kind.labels.length ≤ UInt32.size := by
  by_cases asked : name ∈ categorical
  · obtain rfl : .categorical (labelsOf texts) = kind := by simpa [ofTexts, asked] using known
    exact ofTexts_rewrite_labels asked
  · have found : infer texts = kind := by simpa [ofTexts, asked] using known
    have again : ofTexts categorical name (texts.map kind.rewrite) =
        infer (texts.map kind.rewrite) := if_neg asked
    rw [again]
    cases kind with
    | categorical labels => exact absurd found (infer_ne_categorical labels)
    | real => exact absurd rfl exact
    | text =>
        refine iff_of_true ⟨?_, fun text _ => by rw [rewrite_text]⟩ (Nat.zero_le _)
        rw [map_eq_self fun text _ => rewrite_text text]
        exact found
    | integer => exact iff_of_true (infer_rewrite (by decide) exact found writable) (Nat.zero_le _)
    | boolean => exact iff_of_true (infer_rewrite (by decide) exact found writable) (Nat.zero_le _)
    | timestamp => exact iff_of_true (infer_rewrite (by decide) exact found writable) (Nat.zero_le _)

end ColumnKind

end LinkedViews
