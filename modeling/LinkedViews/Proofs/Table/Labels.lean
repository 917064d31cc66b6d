import LinkedViews.Proofs.Table.Records

/-!
Categorical columns. One pass over the texts of a column collects the labels and gives every cell
the position of its label, which labels that are found later do not change. As long as every label
has a code of its own, putting the labels in place of the codes gives the texts back.
-/

namespace LinkedViews

namespace ColumnKind

variable {texts before rest labels more : List String} {text : String}

/-- Labels that are the texts of a column other than the empty one, each of them once, in the order
in which they first appear. -/
structure FirstSeen (texts labels : List String) : Prop where
  mem : ∀ text, text ∈ labels ↔ text ∈ texts ∧ text ≠ ""
  order : labels.Pairwise fun a b => texts.idxOf a < texts.idxOf b

/-- Whether a cell stands for a text by the position of its label. -/
def Codes (labels : List String) (text : String) (cell : Cell) : Prop :=
  (text = "" → cell = .null) ∧
    (text ≠ "" → ∃ code : UInt32, cell = .category code ∧ labels[code.toNat]? = some text)

/-- The cell that holds a text itself. -/
def textCell (text : String) : Cell := if text = "" then .null else .text text

/-- The next cell of a pass: the code of a label that is known, or a new label at the end. -/
def encodeCell (labels : List String) (text : String) : List String × Cell :=
  if text = "" then (labels, .null)
  else
    match labels.idxOf? text with
    | some code => (labels, .category (UInt32.ofNat code))
    | none => (labels ++ [text], .category (UInt32.ofNat labels.length))

/-- A pass over texts, on top of the labels so far: all labels and the cells. -/
def encodeFrom (labels : List String) : List String → List String × List Cell
  | [] => (labels, [])
  | text :: rest =>
    let next := encodeCell labels text
    let done := encodeFrom next.1 rest
    (done.1, next.2 :: done.2)

/-! ## The labels -/

theorem present_append (texts rest : List String) :
    present (texts ++ rest) = present texts ++ present rest := List.filter_append ..

/-- What is read later adds labels at the end only. -/
theorem exists_labelsOf_append (texts rest : List String) :
    ∃ more, labelsOf (texts ++ rest) = labelsOf texts ++ more := by
  rw [labelsOf, present_append, List.eraseDups_append]
  exact ⟨_, rfl⟩

theorem labelsOf_concat_of_known (known : text = "" ∨ text ∈ texts) :
    labelsOf (texts ++ [text]) = labelsOf texts := by
  by_cases blank : text = ""
  · rw [labelsOf, present_append, blank]
    simp [present, labelsOf]
  · have inside : text ∈ present texts := mem_present.mpr ⟨known.resolve_left blank, blank⟩
    have own : present [text] = [text] := by simp [present, blank]
    rw [labelsOf, present_append, List.eraseDups_append, own]
    simp [List.removeAll, inside, labelsOf]

theorem labelsOf_concat_of_new (shown : text ≠ "") (new : text ∉ texts) :
    labelsOf (texts ++ [text]) = labelsOf texts ++ [text] := by
  have fresh : text ∉ present texts := fun inside => new (mem_present.mp inside).1
  have own : present [text] = [text] := by simp [present, shown]
  rw [labelsOf, present_append, List.eraseDups_append, own]
  simp [List.removeAll, fresh, labelsOf, List.eraseDups_cons]

theorem firstSeen_labelsOf (texts : List String) : FirstSeen texts (labelsOf texts) := by
  refine ⟨fun _ => mem_labelsOf, ?_⟩
  induction texts using List.reverseRecOn with
  | nil => exact List.Pairwise.nil
  | append_singleton texts text ih =>
      have kept : (labelsOf texts).Pairwise fun a b =>
          (texts ++ [text]).idxOf a < (texts ++ [text]).idxOf b := by
        refine ih.imp_of_mem fun one two less => ?_
        rw [List.idxOf_append_of_mem (mem_labelsOf.mp one).1,
          List.idxOf_append_of_mem (mem_labelsOf.mp two).1]
        exact less
      by_cases known : text = "" ∨ text ∈ texts
      · rw [labelsOf_concat_of_known known]
        exact kept
      · obtain ⟨shown, new⟩ := not_or.mp known
        rw [labelsOf_concat_of_new shown new]
        refine List.pairwise_append.mpr ⟨kept, List.pairwise_singleton .., ?_⟩
        intro label member other own
        obtain rfl := List.mem_singleton.mp own
        have inside := (mem_labelsOf.mp member).1
        rw [List.idxOf_append_of_mem inside, List.idxOf_append, if_neg new]
        exact Nat.lt_of_lt_of_le (List.idxOf_lt_length_iff.mpr inside) (Nat.le_add_left ..)

theorem length_labelsOf_le (texts : List String) : (labelsOf texts).length ≤ texts.length :=
  (nodup_eraseDups _).length_le_of_subset fun _ member => (mem_labelsOf.mp member).1

/-! ## The codes -/

/-- A code stays what it is when labels are added behind its own. -/
theorem cell_append (member : text ∈ labels) (more : List String) :
    (categorical (labels ++ more)).cell text = (categorical labels).cell text := by
  obtain ⟨code, known⟩ := Option.ne_none_iff_exists'.mp
    (mt List.idxOf?_eq_none_iff.mp (not_not_intro member))
  have still : (labels ++ more).idxOf? text = some code := by
    rw [List.idxOf?, List.findIdx?_append, ← List.idxOf?, known]
    rfl
  rw [ColumnKind.cell, ColumnKind.cell, readCell?, readCell?, known, still]

/-- One step of the pass, which has collected the labels of what it has read. -/
theorem encodeCell_labelsOf (before : List String) (text : String) :
    encodeCell (labelsOf before) text =
      (labelsOf (before ++ [text]), (categorical (labelsOf (before ++ [text]))).cell text) := by
  by_cases blank : text = ""
  · rw [labelsOf_concat_of_known (.inl blank), encodeCell, if_pos blank, ColumnKind.cell,
      if_pos blank]
  · rw [encodeCell, if_neg blank]
    cases place : (labelsOf before).idxOf? text with
    | some code =>
        obtain ⟨bound, label, _⟩ := List.idxOf?_eq_some_iff.mp place
        have inside := (mem_labelsOf.mp (label ▸ List.getElem_mem bound)).1
        rw [labelsOf_concat_of_known (.inr inside), ColumnKind.cell, if_neg blank, readCell?, place]
        rfl
    | none =>
        have absent := List.idxOf?_eq_none_iff.mp place
        have new : text ∉ before := fun inside => absent (mem_labelsOf.mpr ⟨inside, blank⟩)
        have last : (labelsOf before ++ [text]).idxOf? text = some (labelsOf before).length := by
          rw [List.idxOf?, List.findIdx?_append, ← List.idxOf?, place]
          simp
        rw [labelsOf_concat_of_new blank new, ColumnKind.cell, if_neg blank, readCell?, last]
        rfl

/-- The whole pass. The labels of what has been read are the first of all labels, so the codes that
were given are those that the cells have in the end. -/
theorem encodeFrom_labelsOf (before rest : List String) :
    encodeFrom (labelsOf before) rest =
      (labelsOf (before ++ rest), rest.map (categorical (labelsOf (before ++ rest))).cell) := by
  induction rest generalizing before with
  | nil => simp [encodeFrom]
  | cons text rest ih =>
      have whole : before ++ text :: rest = before ++ [text] ++ rest := by simp
      obtain ⟨more, later⟩ := exists_labelsOf_append (before ++ [text]) rest
      have settled : (categorical (labelsOf (before ++ [text] ++ rest))).cell text =
          (categorical (labelsOf (before ++ [text]))).cell text := by
        by_cases blank : text = ""
        · rw [blank, cell_empty, cell_empty]
        · rw [later, cell_append (mem_labelsOf.mpr ⟨by simp, blank⟩)]
      rw [encodeFrom, encodeCell_labelsOf, ih, whole, List.map_cons, settled]

theorem encodeFrom_nil (texts : List String) :
    encodeFrom [] texts = (labelsOf texts, texts.map (categorical (labelsOf texts)).cell) :=
  encodeFrom_labelsOf [] texts

theorem codes_cell (fit : labels.length ≤ UInt32.size) (known : text ≠ "" → text ∈ labels) :
    Codes labels text ((categorical labels).cell text) := by
  refine ⟨fun blank => by rw [blank, cell_empty], fun shown => ?_⟩
  obtain ⟨code, label, coded⟩ := cell_categorical shown (known shown)
  have bound : code < UInt32.size :=
    Nat.lt_of_lt_of_le (List.getElem?_eq_some_iff.mp label).1 fit
  exact ⟨UInt32.ofNat code, coded, by rw [UInt32.toNat_ofNat_of_lt' bound, label]⟩

/-- A label takes the place of its code. -/
theorem Codes.labelCell {cell : Cell} {name : String} (codes : Codes labels text cell) :
    Column.labelCell ⟨name, categorical labels⟩ cell = textCell text := by
  by_cases blank : text = ""
  · rw [codes.1 blank, textCell, if_pos blank]
    rfl
  · obtain ⟨code, rfl, label⟩ := codes.2 blank
    simp [Column.labelCell, label, textCell, blank]

end ColumnKind

namespace Table

open Delimited

variable {categorical : List String} {table : Table} {column : Column} {bytes : List UInt8}
  {index : Nat}

theorem getElem?_columns_labelled (at_ : table.columns[index]? = some column) :
    table.labelled.columns[index]? = some column.labelled := by
  rw [labelled, List.getElem?_map, at_, Option.map_some]

theorem cellsAt_labelled (at_ : table.columns[index]? = some column) :
    table.labelled.cellsAt index = (table.cellsAt index).map (Option.map column.labelCell) := by
  rw [cellsAt, cellsAt, labelled, List.map_map, List.map_map]
  refine List.map_congr_left fun row _ => ?_
  rw [Function.comp_apply, Function.comp_apply, List.getElem?_zipWith, at_]
  cases row[index]? <;> rfl

theorem labelled_eq_self (plain : ∀ labels, column.kind ≠ .categorical labels) :
    column.labelled = column := by
  unfold Column.labelled
  split
  · exact absurd ‹_› (plain _)
  · rfl

/-- Labels that have a code each give the texts back that the cells were read from. -/
theorem labelled_of_categorical {texts : List String}
    (at_ : table.columns[index]? = some column)
    (kind : column.kind = .categorical (ColumnKind.labelsOf texts))
    (cells : table.cellsAt index = texts.map fun text => some (column.kind.cell text))
    (few : texts.length ≤ UInt32.size) :
    List.Forall₂ (ColumnKind.Codes (ColumnKind.labelsOf texts)) texts (texts.map column.kind.cell) ∧
      table.labelled.columns[index]? = some ⟨column.name, .text⟩ ∧
      table.labelled.cellsAt index = texts.map fun text => some (ColumnKind.textCell text) := by
  have fit := Nat.le_trans (ColumnKind.length_labelsOf_le texts) few
  have codes : ∀ text ∈ texts,
      ColumnKind.Codes (ColumnKind.labelsOf texts) text (column.kind.cell text) := by
    intro text member
    exact kind ▸ ColumnKind.codes_cell fit fun shown => ColumnKind.mem_labelsOf.mpr ⟨member, shown⟩
  refine ⟨List.forall₂_map_right_iff.mpr (List.forall₂_same.mpr codes), ?_, ?_⟩
  · rw [getElem?_columns_labelled at_, Column.labelled, kind]
  · rw [cellsAt_labelled at_, cells, List.map_map]
    refine List.map_congr_left fun text member => ?_
    obtain ⟨name, own⟩ := column
    obtain rfl : own = _ := kind
    exact congrArg some (codes text member).labelCell

theorem labelled_of_plain (at_ : table.columns[index]? = some column)
    (plain : ∀ labels, column.kind ≠ .categorical labels) :
    table.labelled.columns[index]? = some column ∧
      table.labelled.cellsAt index = table.cellsAt index := by
  constructor
  · rw [getElem?_columns_labelled at_, labelled_eq_self plain]
  · rw [cellsAt_labelled at_]
    refine (List.map_congr_left fun cell _ => ?_).trans (List.map_id _)
    cases cell with
    | none => rfl
    | some cell => exact congrArg some (ColumnKind.labelCell_eq_self plain)

/-- A column that is asked for as categorical gets its texts as labels in the order in which they
first appear, and codes as one pass gives them. With the labels in place of the codes it is the
column of its texts, and every other column is as before. -/
theorem labelled_ofDelimited (parsed : ofDelimited categorical bytes = .ok table)
    (few : table.rowCount ≤ 2 ^ 32) :
    ∃ records, Delimited.read bytes = .ok (table.columnNames, records) ∧
      (∀ fields ∈ records, fields.length = table.columnNames.length) ∧
      table.labelled.columnNames = table.columnNames ∧
      table.labelled.rowCount = table.rowCount ∧
      ∀ (index : Nat) (column : Column), table.columns[index]? = some column →
        (column.name ∈ categorical →
          ∃ labels cells, column.kind = .categorical labels ∧
            ColumnKind.encodeFrom [] (columnTexts records index) = (labels, cells) ∧
            table.cellsAt index = cells.map some ∧
            ColumnKind.FirstSeen (columnTexts records index) labels ∧
            List.Forall₂ (ColumnKind.Codes labels) (columnTexts records index) cells ∧
            table.labelled.columns[index]? = some ⟨column.name, .text⟩ ∧
            table.labelled.cellsAt index =
              (columnTexts records index).map fun text => some (ColumnKind.textCell text)) ∧
        (column.name ∉ categorical →
          table.labelled.columns[index]? = some column ∧
            table.labelled.cellsAt index = table.cellsAt index) := by
  obtain ⟨records, read, whole, even, _⟩ := read_of_ofDelimited parsed
  refine ⟨records, read, even, columnNames_labelled, List.length_map _, ?_⟩
  intro index column at_
  have cells : table.cellsAt index =
      (columnTexts records index).map fun text => some (column.kind.cell text) := by
    rw [whole]
    exact cellsAt_ofRecords even (whole ▸ at_)
  have kind := (eq_of_getElem?_columns (whole ▸ at_)).2
  constructor
  · intro asked
    rw [ColumnKind.ofTexts, if_pos asked] at kind
    have size : (columnTexts records index).length ≤ UInt32.size := by
      have rows := congrArg List.length cells
      rw [cellsAt, List.length_map, List.length_map] at rows
      exact rows ▸ few
    obtain ⟨codes, columns, shown⟩ := labelled_of_categorical at_ kind cells size
    refine ⟨_, _, kind, kind ▸ ColumnKind.encodeFrom_nil _, ?_, ColumnKind.firstSeen_labelsOf _,
      codes, columns, shown⟩
    rw [cells, List.map_map]
    rfl
  · intro free
    rw [ColumnKind.ofTexts, if_neg free] at kind
    exact labelled_of_plain at_ fun labels same =>
      ColumnKind.infer_ne_categorical labels (kind.symm.trans same)

/-- The third cell is empty, and the fourth has the label of the first. -/
def lettered : Table :=
  ⟨[⟨"g", .categorical ["b", "a"]⟩, ⟨"n", .integer⟩],
    [[.category 0, .integer 1], [.category 1, .null], [.null, .integer 2],
      [.category 0, .integer 3]]⟩

theorem labelled_ofDelimited_repeated :
    ∃ records, Delimited.read (Text.Utf8.encode "g,n\nb,1\na,\n,2\nb,3\n".toList) =
        .ok (["g", "n"], records) ∧
      ColumnKind.FirstSeen (columnTexts records 0) ["b", "a"] ∧
      lettered.labelled.cellsAt 0 =
        (columnTexts records 0).map (fun text => some (ColumnKind.textCell text)) ∧
      lettered.labelled.cellsAt 1 = lettered.cellsAt 1 := by
  have parsed : ofDelimited ["g"] (Text.Utf8.encode "g,n\nb,1\na,\n,2\nb,3\n".toList) =
      .ok lettered := eq_ok_of_toOption (by decide +kernel)
  obtain ⟨records, read, _, _, _, columns⟩ := labelled_ofDelimited parsed (by decide)
  obtain ⟨labels, cells, kind, _, _, seen, _, _, shown⟩ :=
    (columns 0 ⟨"g", .categorical ["b", "a"]⟩ rfl).1 (by decide)
  obtain rfl : ["b", "a"] = labels := ColumnKind.categorical.inj kind
  exact ⟨records, read, seen, shown, ((columns 1 ⟨"n", .integer⟩ rfl).2 (by decide)).2⟩

end Table

end LinkedViews
