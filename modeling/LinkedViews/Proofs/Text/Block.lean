import LinkedViews.Proofs.Text.ClosingTag
import LinkedViews.Text.Blank

/-!
Blocks: texts that show something on each of their lines. A line within a block is never blank, so
blocks with blank lines between them can be told apart, and a margin before the lines of a block can
be taken away again.
-/

namespace LinkedViews.Text

/-- What has been read of a line: white space at most, or something that shows. -/
inductive Line where
  | blank
  | inked
deriving DecidableEq, Repr

namespace Line

/-- Reads a character. A line that shows nothing must not end, and a carriage return is no part of
any line. -/
def step (line : Line) (c : Char) : Option Line :=
  if c = '\r' then none
  else if c = '\n' then if line = inked then some blank else none
  else if isBlank c then some line
  else some inked

def after (line : Line) (text : List Char) : Option Line := text.foldlM step line

end Line

/-- Whether a text is on one line. -/
def IsSingle (text : List Char) : Prop := ∀ c ∈ text, c ≠ '\n' ∧ c ≠ '\r'

def Shows (text : List Char) : Prop := ∃ c ∈ text, isBlank c = false

@[mk_iff]
structure IsInked (line : List Char) : Prop where
  single : IsSingle line
  shows : Shows line

def IsBlock (text : List Char) : Prop := Line.after .blank text = some .inked

instance (text : List Char) : Decidable (IsBlock text) :=
  inferInstanceAs (Decidable (_ = _))

variable {c : Char} {text front back first : List Char} {rest parts : List (List Char)}

theorem IsSingle.append (one : IsSingle front) (other : IsSingle back) : IsSingle (front ++ back) :=
  fun c member => (List.mem_append.mp member).elim (one c) (other c)

theorem isSingle_cons : IsSingle (c :: text) ↔ (c ≠ '\n' ∧ c ≠ '\r') ∧ IsSingle text :=
  List.forall_mem_cons

theorem IsSingle.feed (single : IsSingle text) : '\n' ∉ text := fun member =>
  (single '\n' member).1 rfl

theorem shows_cons : Shows (c :: text) ↔ isBlank c = false ∨ Shows text := by
  simp [Shows]

theorem splitOn_feed (text : List Char) :
    ('\n' :: text).splitOn '\n' = [] :: text.splitOn '\n' :=
  List.splitOn_append_cons_self [] text

theorem splitOn_cons (other : c ≠ '\n') (split : text.splitOn '\n' = first :: rest) :
    (c :: text).splitOn '\n' = (c :: first) :: rest := by
  have kept : ¬ (c == '\n') = true := by simp [other]
  rw [List.splitOn] at split ⊢
  rw [List.splitOnP_cons_eq_if_modifyHead, split, if_neg kept, List.modifyHead_cons]

theorem exists_splitOn (text : List Char) : ∃ first rest, text.splitOn '\n' = first :: rest :=
  List.exists_cons_of_ne_nil (List.splitOnP_ne_nil _ text)

/-! ## Reading lines -/

namespace Line

theorem after_cons (line : Line) (c : Char) (text : List Char) :
    after line (c :: text) = (line.step c).bind fun next => after next text := by
  rw [after, List.foldlM_cons]
  rfl

theorem after_append (line : Line) (front back : List Char) :
    after line (front ++ back) = (after line front).bind fun next => after next back := by
  rw [after, List.foldlM_append]
  rfl

theorem after_feed : after inked "\n".toList = some blank := by decide

theorem step_carriage (line : Line) : line.step '\r' = none := rfl

theorem step_blank (single : c ≠ '\n' ∧ c ≠ '\r') (blank : isBlank c = true) (line : Line) :
    line.step c = some line := by
  simp [step, single, blank]

theorem single_of_shown (shown : isBlank c = false) : c ≠ '\n' ∧ c ≠ '\r' := by
  constructor
  · intro same
    rw [same] at shown
    contradiction
  · intro same
    rw [same] at shown
    contradiction

theorem step_shown (shown : isBlank c = false) (line : Line) : line.step c = some inked := by
  simp [step, single_of_shown shown, shown]

/-- What reading a text says about its lines, the first of which has been begun before. -/
theorem after_eq_inked_iff (line : Line) (split : text.splitOn '\n' = first :: rest) :
    after line text = some inked ↔
      IsSingle first ∧ (line = inked ∨ Shows first) ∧ ∀ other ∈ rest, IsInked other := by
  -- The first line may have begun in front of the text, so what has been read of it is general.
  induction text generalizing line first rest with
  | nil =>
      obtain ⟨rfl, rfl⟩ := List.cons.inj split
      simp [after, IsSingle, Shows]
  | cons c text ih =>
      obtain ⟨next, more, later⟩ := exists_splitOn text
      rw [after_cons]
      by_cases feed : c = '\n'
      · obtain rfl := feed
        obtain ⟨rfl, rfl⟩ := List.cons.inj ((splitOn_feed text).symm.trans split)
        rw [later, List.forall_mem_cons]
        cases line with
        | blank => simp [step, Shows]
        | inked =>
          have begun := ih blank later
          simp only [reduceCtorEq, false_or] at begun
          simp [step, begun, isInked_iff, IsSingle, and_assoc]
      obtain ⟨rfl, rfl⟩ := List.cons.inj ((splitOn_cons feed later).symm.trans split)
      by_cases carriage : c = '\r'
      · obtain rfl := carriage
        simp [step_carriage, isSingle_cons]
      have single : c ≠ '\n' ∧ c ≠ '\r' := ⟨feed, carriage⟩
      rw [isSingle_cons, and_iff_right single, shows_cons]
      cases shown : isBlank c with
      | true => simp [step_blank single shown, ih line later]
      | false => simp [step_shown shown, ih inked later]

theorem after_inked (single : IsSingle text) : after inked text = some inked := by
  have split : text.splitOn '\n' = [text] := List.splitOn_eq_singleton single.feed
  exact (after_eq_inked_iff inked split).mpr ⟨single, .inl rfl, by simp⟩

/-- A text on one line that begins with something to see. -/
theorem after_shown (shown : isBlank c = false) (single : IsSingle text) (line : Line) :
    after line (c :: text) = some inked := by
  rw [after_cons, step_shown shown]
  exact after_inked single

end Line

/-! ## Blocks -/

theorem isBlock_iff : IsBlock text ↔ ∀ line ∈ text.splitOn '\n', IsInked line := by
  obtain ⟨first, rest, split⟩ := exists_splitOn text
  rw [IsBlock, Line.after_eq_inked_iff .blank split, split, List.forall_mem_cons, isInked_iff]
  simp [and_assoc]

theorem IsBlock.isInked (block : IsBlock text) (single : '\n' ∉ text) : IsInked text := by
  apply isBlock_iff.mp block
  rw [List.splitOn_eq_singleton single]
  exact List.mem_singleton_self text

theorem isBlock_lines (nonempty : parts ≠ []) (inked : ∀ line ∈ parts, IsInked line) :
    IsBlock (['\n'].intercalate parts) := by
  rw [isBlock_iff, List.splitOn_intercalate '\n' (fun line member => (inked line member).single.feed)
    nonempty]
  exact inked

/-- Blocks make a block together, each beginning on a line of its own. -/
theorem isBlock_intercalate {separator : List Char}
    (feeds : Line.after .inked separator = some .blank) (nonempty : parts ≠ [])
    (blocks : ∀ part ∈ parts, IsBlock part) : IsBlock (separator.intercalate parts) := by
  induction parts with
  | nil => exact absurd rfl nonempty
  | cons part rest ih =>
      obtain ⟨first, others⟩ := List.forall_mem_cons.mp blocks
      cases rest with
      | nil =>
          rw [List.intercalate_singleton]
          exact first
      | cons next more =>
          have later := ih (List.cons_ne_nil next more) others
          rw [IsBlock] at first later
          rw [IsBlock, List.intercalate_cons_cons, Line.after_append, Line.after_append, first,
            Option.bind_some, feeds, Option.bind_some, later]

theorem isBlock_toList_intercalate {separator : String} {texts : List String}
    (feeds : Line.after .inked separator.toList = some .blank) (nonempty : texts ≠ [])
    (blocks : ∀ text ∈ texts, IsBlock text.toList) :
    IsBlock (String.intercalate separator texts).toList := by
  rw [String.toList_intercalate]
  exact isBlock_intercalate feeds (mt List.map_eq_nil_iff.mp nonempty)
    (List.forall_mem_map.mpr blocks)

theorem IsBlock.append_feed (block : IsBlock front) (other : IsBlock back) :
    IsBlock (front ++ '\n' :: back) := by
  rw [IsBlock] at block other
  rw [IsBlock, Line.after_append, block, Option.bind_some, Line.after_cons]
  exact other

/-- The last line of a block may go on. -/
theorem IsBlock.append (block : IsBlock front) (single : IsSingle back) :
    IsBlock (front ++ back) := by
  rw [IsBlock] at block
  rw [IsBlock, Line.after_append, block, Option.bind_some, Line.after_inked single]

/-! ## Lines of a text -/

theorem lines_cons (single : c ≠ '\n' ∧ c ≠ '\r') (split : lines text = first :: rest) :
    lines (c :: text) = (c :: first) :: rest := by
  rw [lines, split]
  · exact single.1
  · exact fun _ same => absurd same single.2

/-- The first line of any text, where it has no carriage return. -/
theorem lines_append_feed (single : IsSingle front) (back : List Char) :
    lines (front ++ '\n' :: back) = front :: lines back := by
  induction front with
  | nil => rw [List.nil_append, lines]
  | cons c rest ih =>
      obtain ⟨own, others⟩ := isSingle_cons.mp single
      exact lines_cons own (ih others)

theorem lines_of_isSingle (single : IsSingle text) (nonempty : text ≠ []) : lines text = [text] := by
  induction text with
  | nil => exact absurd rfl nonempty
  | cons c rest ih =>
      obtain ⟨own, others⟩ := isSingle_cons.mp single
      cases rest with
      | nil => simp [lines, own]
      | cons d more => exact lines_cons own (ih others (List.cons_ne_nil d more))

theorem IsInked.ne_nil (inked : IsInked text) : text ≠ [] := by
  obtain ⟨c, inside, _⟩ := inked.shows
  exact List.ne_nil_of_mem inside

theorem lines_intercalate (inked : ∀ line ∈ parts, IsInked line) :
    lines (['\n'].intercalate parts) = parts := by
  induction parts with
  | nil => rw [List.intercalate_nil, lines]
  | cons line rest ih =>
      obtain ⟨first, others⟩ := List.forall_mem_cons.mp inked
      cases rest with
      | nil => rw [List.intercalate_singleton, lines_of_isSingle first.single first.ne_nil]
      | cons next more =>
          rw [List.intercalate_cons_cons, List.append_assoc, List.singleton_append,
            lines_append_feed first.single, ih others]

/-- The lines of a block are what stands between its line feeds. -/
theorem IsBlock.lines_eq (block : IsBlock text) : lines text = text.splitOn '\n' := by
  have joined := lines_intercalate (isBlock_iff.mp block)
  rw [List.intercalate_splitOn] at joined
  exact joined

theorem IsInked.margin {margin : List Char} (single : IsSingle margin) (inked : IsInked text) :
    IsInked (margin ++ text) where
  single := single.append inked.single
  shows := inked.shows.imp fun _ shown => ⟨List.mem_append_right margin shown.1, shown.2⟩

/-! ## Margins -/

section Margin

variable {margin text : String}

theorem toList_indent (block : IsBlock text.toList) :
    (indent margin text).toList =
      ['\n'].intercalate ((text.toList.splitOn '\n').map (margin.toList ++ ·)) := by
  have moved : ∀ line ∈ text.toList.splitOn '\n',
      indentLine margin.toList line = margin.toList ++ line := fun line member =>
    if_neg (isBlock_iff.mp block line member).ne_nil
  rw [indent, String.toList_ofList, block.lines_eq, List.map_congr_left moved]

theorem isInked_of_mem_moved (single : IsSingle margin.toList) (block : IsBlock text.toList) :
    ∀ line ∈ (text.toList.splitOn '\n').map (margin.toList ++ ·), IsInked line := by
  intro line member
  obtain ⟨inner, own, rfl⟩ := List.mem_map.mp member
  exact (isBlock_iff.mp block inner own).margin single

theorem moved_ne_nil : (text.toList.splitOn '\n').map (margin.toList ++ ·) ≠ [] := by
  simp [List.splitOn, List.splitOnP_ne_nil]

theorem isBlock_indent (single : IsSingle margin.toList) (block : IsBlock text.toList) :
    IsBlock (indent margin text).toList := by
  rw [toList_indent block]
  exact isBlock_lines moved_ne_nil (isInked_of_mem_moved single block)

theorem splitOn_indent (single : IsSingle margin.toList) (block : IsBlock text.toList) :
    (indent margin text).toList.splitOn '\n' =
      (text.toList.splitOn '\n').map (margin.toList ++ ·) := by
  rw [toList_indent block]
  exact List.splitOn_intercalate '\n'
    (fun line member => (isInked_of_mem_moved single block line member).single.feed) moved_ne_nil

/-- What is written one by one is read back one by one. -/
theorem mapM_map_eq_some {item written : Type} {write : item → written}
    {read? : written → Option item} {items : List item}
    (undone : ∀ one ∈ items, read? (write one) = some one) :
    (items.map write).mapM read? = some items := by
  induction items with
  | nil => rfl
  | cons one rest ih =>
      obtain ⟨first, others⟩ := List.forall_mem_cons.mp undone
      rw [List.map_cons, List.mapM_cons, first, ih others]
      rfl

/-- Takes the margin before each of some lines away, and puts the lines together to a text. -/
def unindent? (margin : String) (lines : List (List Char)) : Option String :=
  (lines.mapM margin.toList.isPrefixOf?).map fun lines => String.ofList (['\n'].intercalate lines)

theorem unindent?_indent (single : IsSingle margin.toList) (block : IsBlock text.toList) :
    unindent? margin ((indent margin text).toList.splitOn '\n') = some text := by
  have taken : ((text.toList.splitOn '\n').map (margin.toList ++ ·)).mapM
      margin.toList.isPrefixOf? = some (text.toList.splitOn '\n') :=
    mapM_map_eq_some fun line _ => List.isPrefixOf?_eq_some_iff_append_eq.mpr rfl
  rw [unindent?, splitOn_indent single block, taken, Option.map_some, List.intercalate_splitOn,
    String.ofList_toList]

end Margin

/-! ## Blank lines -/

def isBlankLine (line : List Char) : Bool := line.all isBlank

theorem IsInked.isBlankLine_eq_false (inked : IsInked text) : isBlankLine text = false := by
  obtain ⟨c, member, shown⟩ := inked.shows
  exact List.all_eq_false.mpr ⟨c, member, by simp [shown]⟩

/-- Parts with a blank line between each two of them, line by line. -/
theorem splitOn_intercalate_feeds (nonempty : parts ≠ []) :
    (['\n', '\n'].intercalate parts).splitOn '\n' =
      [[]].intercalate (parts.map (List.splitOn '\n')) := by
  induction parts with
  | nil => exact absurd rfl nonempty
  | cons part rest ih =>
      cases rest with
      | nil => simp
      | cons next more =>
          rw [List.map_cons, List.map_cons, List.intercalate_cons_cons, List.intercalate_cons_cons,
            ← List.map_cons, ← ih (List.cons_ne_nil next more), List.append_assoc, List.append_assoc]
          exact (List.splitOn_append_cons_self part _).trans (congrArg _ (splitOn_feed _))

theorem splitOnP_intercalate {item : Type} {p : item → Bool} {separator : item}
    {chunks : List (List item)} (separates : p separator = true) (nonempty : chunks ≠ [])
    (others : ∀ chunk ∈ chunks, ∀ one ∈ chunk, p one = false) :
    ([separator].intercalate chunks).splitOnP p = chunks := by
  induction chunks with
  | nil => exact absurd rfl nonempty
  | cons chunk rest ih =>
      obtain ⟨first, later⟩ := List.forall_mem_cons.mp others
      cases rest with
      | nil => rw [List.intercalate_singleton, List.splitOnP_eq_singleton first]
      | cons next more =>
          rw [List.intercalate_cons_cons, List.append_assoc, List.singleton_append,
            List.splitOnP_append_cons _ _ separates, List.splitOnP_eq_singleton first,
            ih (List.cons_ne_nil next more) later, List.singleton_append]

section Paragraphs

variable {margin : String} {texts : List String}

/-- The lines of blocks that are moved in, with an empty line between each two of the blocks. -/
theorem splitOn_paragraphs (nonempty : texts ≠ []) :
    (String.intercalate "\n\n" (texts.map (indent margin))).toList.splitOn '\n' =
      [[]].intercalate (texts.map fun text => (indent margin text).toList.splitOn '\n') := by
  have shape : (String.intercalate "\n\n" (texts.map (indent margin))).toList =
      ['\n', '\n'].intercalate (texts.map fun text => (indent margin text).toList) := by
    rw [String.toList_intercalate, List.map_map]
    rfl
  rw [shape, splitOn_intercalate_feeds (by simp [nonempty]), List.map_map, Function.comp_def]

theorem isInked_of_mem_indent (single : IsSingle margin.toList)
    (blocks : ∀ text ∈ texts, IsBlock text.toList) :
    ∀ lines ∈ texts.map fun text => (indent margin text).toList.splitOn '\n',
      ∀ line ∈ lines, IsInked line :=
  List.forall_mem_map.mpr fun text member =>
    isBlock_iff.mp (isBlock_indent single (blocks text member))

/-- No line but those between the blocks is blank. -/
theorem eq_nil_or_isInked (single : IsSingle margin.toList) (nonempty : texts ≠ [])
    (blocks : ∀ text ∈ texts, IsBlock text.toList) :
    ∀ line ∈ (String.intercalate "\n\n" (texts.map (indent margin))).toList.splitOn '\n',
      line = [] ∨ IsInked line := by
  have between : ∀ line ∈ ([[]] : List (List Char)), line = [] ∨ IsInked line := by simp
  rw [splitOn_paragraphs nonempty]
  exact (forall_mem_intercalate between _).mpr fun lines member line inside =>
    .inr (isInked_of_mem_indent single blocks lines member line inside)

/-- Reads the texts that stand between blank lines, without the margin before each of their lines. -/
def paragraphs? (margin : String) (lines : List (List Char)) : Option (List String) :=
  (lines.splitOnP isBlankLine).mapM (unindent? margin)

/-- Blocks that are moved in and have blank lines between them are found again. -/
theorem paragraphs?_indent (single : IsSingle margin.toList) (nonempty : texts ≠ [])
    (blocks : ∀ text ∈ texts, IsBlock text.toList) :
    paragraphs? margin
      ((String.intercalate "\n\n" (texts.map (indent margin))).toList.splitOn '\n') = some texts := by
  have empty : isBlankLine [] = true := rfl
  have others : ∀ lines ∈ texts.map fun text => (indent margin text).toList.splitOn '\n',
      ∀ line ∈ lines, isBlankLine line = false := fun lines member line inside =>
    (isInked_of_mem_indent single blocks lines member line inside).isBlankLine_eq_false
  rw [paragraphs?, splitOn_paragraphs nonempty,
    splitOnP_intercalate empty (by simp [nonempty]) others]
  exact mapM_map_eq_some fun text member => unindent?_indent single (blocks text member)

end Paragraphs

end LinkedViews.Text
