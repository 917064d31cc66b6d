import LinkedViews.Proofs.Script.Layout

/-!
The comments over fragments. A label is put on one line by its line feeds and carriage returns, but
a reader of scripts ends a line at U+2028 and U+2029 too: what stands behind one of these in a label
is no comment.
-/

namespace LinkedViews

open Text

namespace Lexeme

/-- A comment that is read goes on up to the next end of a line. -/
theorem head?_read_comment (taken text : List Char) :
    (read (.comment taken) text).head? =
      some (.comment (taken ++ text.takeWhile fun c => !isLineEnd c)) := by
  induction text generalizing taken with
  | nil =>
      rw [List.takeWhile_nil, List.append_nil]
      rfl
  | cons c rest ih =>
      cases line : isLineEnd c with
      | true => simp [read, complete, step, line]
      | false =>
          have goes : step (.comment taken) c = (.comment (taken ++ [c]), []) := by
            simp [step, line]
          have later := ih (taken ++ [c])
          rw [List.append_assoc, List.singleton_append] at later
          rw [List.takeWhile_cons_of_pos (by simp [line]), ← later, read, read, complete, after, goes,
            List.nil_append]

end Lexeme

namespace Fragment

variable {fragment : Fragment}

/-- Whether a text begins, behind a margin, with a comment whose line ends right before the line on
which the function of a fragment begins. -/
def KeepsComment (margin text : List Char) : Prop :=
  ∃ taken behind,
    text = margin ++ '/' :: '/' :: (taken ++ '\n' :: (margin ++ opening.toList ++ '\n' :: behind)) ∧
      ∀ c ∈ taken, Lexeme.isLineEnd c = false

/-- The line feed behind a label is the first one there is, so it is the one that has to end the
line. -/
theorem keepsComment_iff (margin behind : List Char) (fragment : Fragment) :
    KeepsComment margin
        (margin ++ '/' :: '/' :: (fragment.comment ++ '\n' :: (margin ++ opening.toList ++ '\n' :: behind))) ↔
      IsPlain fragment.label := by
  rw [isPlain_label]
  constructor
  · intro kept
    obtain ⟨taken, others, same, ended⟩ := kept
    have own : '\n' ∉ fragment.comment := fun member =>
      fragment.isSingle_comment.feed (List.mem_cons_of_mem _ (List.mem_cons_of_mem _ member))
    have single : '\n' ∉ taken := fun member => absurd (ended '\n' member) (by decide)
    simp only [List.append_cancel_left_eq, List.cons.injEq, true_and] at same
    have first := congrArg (List.splitOn '\n') same
    rw [List.splitOn_append_cons_self fragment.comment, List.splitOn_append_cons_self taken,
      List.splitOn_eq_singleton own, List.splitOn_eq_singleton single] at first
    rw [(List.cons.inj first).1]
    exact ended
  · intro ended
    exact ⟨fragment.comment, behind, rfl, ended⟩

theorem keepsComment_text (fragment : Fragment) :
    KeepsComment [] fragment.text.toList ↔ IsPlain fragment.label := by
  rw [toList_text]
  exact fragment.keepsComment_iff [] _

theorem head?_ofText (fragment : Fragment) : (Lexeme.ofText fragment.text).head? =
    some (.comment (fragment.comment.takeWhile fun c => !Lexeme.isLineEnd c)) := by
  have opens (text : List Char) :
      Lexeme.read .code ('/' :: '/' :: text) = Lexeme.read (.comment []) text := rfl
  have feed (rest : List Char) :
      (fragment.comment ++ '\n' :: rest).takeWhile (fun c => !Lexeme.isLineEnd c) =
        fragment.comment.takeWhile fun c => !Lexeme.isLineEnd c := by
    have stops : ('\n' :: rest).takeWhile (fun c => !Lexeme.isLineEnd c) = [] := rfl
    rw [List.takeWhile_append, stops, List.append_nil]
    split
    · rename_i whole
      exact ((List.takeWhile_prefix _).eq_of_length whole).symm
    · rfl
  rw [Lexeme.ofText, toList_text, List.cons_append, List.cons_append, opens, Lexeme.head?_read_comment, List.nil_append, feed]

theorem head?_ofText_text (fragment : Fragment) :
    (Lexeme.ofText fragment.text).head? = some (.comment fragment.comment) ↔
      IsPlain fragment.label := by
  rw [head?_ofText, isPlain_label]
  simp

/-- The first two lines of a fragment, once it is moved in. -/
theorem exists_toList_indent (fragment : Fragment) :
    ∃ behind, (indent margin fragment.text).toList =
      margin.toList ++ '/' :: '/' :: (fragment.comment ++ '\n' ::
        (margin.toList ++ opening.toList ++ '\n' :: behind)) := by
  have opened : IsSingle opening.toList := by simp [IsSingle, opening]
  have nonempty : lines ((indent margin fragment.body).toList ++ '\n' :: "\x7d)();".toList) ≠ [] := by
    simp [lines_eq_nil]
  obtain ⟨line, more, rest⟩ := List.exists_cons_of_ne_nil nonempty
  have all : lines fragment.text.toList =
      ('/' :: '/' :: fragment.comment) :: opening.toList :: line :: more := by
    rw [toList_text, lines_append_feed fragment.isSingle_comment, lines_append_feed opened, rest]
  refine ⟨['\n'].intercalate ((line :: more).map (indentLine margin.toList)), ?_⟩
  rw [indent, String.toList_ofList, all, List.map_cons, List.map_cons, List.map_cons,
    List.intercalate_cons_cons, List.intercalate_cons_cons]
  simp [indentLine, opening]

end Fragment

namespace Dashboard

variable {dashboard : Dashboard} {displayId : String}

/-- Each part stands on lines of its own. -/
theorem exists_intercalate_feeds {part : List Char} {parts : List (List Char)} (member : part ∈ parts)
    (rest : List Char) :
    ∃ front back, '\n' :: (['\n', '\n'].intercalate parts ++ '\n' :: rest) =
      front ++ '\n' :: (part ++ '\n' :: back) := by
  induction parts with
  | nil => contradiction
  | cons first others ih =>
      cases others with
      | nil =>
          obtain rfl := List.mem_singleton.mp member
          exact ⟨[], rest, by simp⟩
      | cons next more =>
          have split : '\n' :: (['\n', '\n'].intercalate (first :: next :: more) ++ '\n' :: rest) =
              '\n' :: first ++ '\n' :: '\n' ::
                (['\n', '\n'].intercalate (next :: more) ++ '\n' :: rest) := by
            rw [List.intercalate_cons_cons]
            simp
          rw [split]
          obtain rfl | later := List.mem_cons.mp member
          · exact ⟨[], _, rfl⟩
          · obtain ⟨front, back, shape⟩ := ih later
            refine ⟨'\n' :: first ++ '\n' :: front, back, ?_⟩
            rw [shape]
            simp

/-- The copy of a section stands on lines of its own in the script. -/
theorem exists_script {text : String} (member : text ∈ dashboard.sections displayId) :
    ∃ front back, (dashboard.script displayId).toList =
      front ++ '\n' :: ((indent Fragment.margin text).toList ++ '\n' :: back) := by
  have moved : (indent Fragment.margin text).toList ∈
      ((dashboard.sections displayId).map (indent Fragment.margin)).map String.toList :=
    List.mem_map_of_mem (List.mem_map_of_mem member)
  obtain ⟨front, back, shape⟩ := exists_intercalate_feeds moved "\x7d);\n".toList
  refine ⟨Resources.opener.toList ++ front, back, ?_⟩
  rw [List.append_assoc, ← shape, toList_script, String.toList_intercalate]
  rfl

/-- A label stays in its comment, in the text of its fragment and in the copy of that text in the
script, exactly if it has no character at which only a reader of scripts ends a line. Where fragments
are made from charts, all of them stay exactly if the fields on the axes have no such character. -/
theorem keepsComment_script (dashboard : Dashboard) (displayId : String) :
    (∀ fragment ∈ dashboard.fragments,
      (Fragment.KeepsComment [] fragment.text.toList ↔ Fragment.IsPlain fragment.label) ∧
      ((Lexeme.ofText fragment.text).head? = some (.comment fragment.comment) ↔
        Fragment.IsPlain fragment.label) ∧
      ∃ front copy back,
        (dashboard.script displayId).toList = front ++ '\n' :: (copy ++ '\n' :: back) ∧
        copy = (indent Fragment.margin fragment.text).toList ∧
        (Fragment.KeepsComment Fragment.margin.toList copy ↔ Fragment.IsPlain fragment.label)) ∧
    ∀ table index charts, ofCharts table index charts = .ok dashboard →
      ((∀ fragment ∈ dashboard.fragments, Fragment.IsPlain fragment.label) ↔
        ∀ chart ∈ charts, ∀ field ∈ chart.axis.fields, Fragment.IsPlain field) := by
  refine ⟨?_, ?_⟩
  · intro fragment member
    refine ⟨fragment.keepsComment_text, fragment.head?_ofText_text, ?_⟩
    have section_ : fragment.text ∈ dashboard.sections displayId := by
      simp only [sections, List.mem_append, List.mem_map]
      exact .inl (.inr ⟨fragment, member, rfl⟩)
    obtain ⟨front, back, shape⟩ := exists_script section_
    obtain ⟨behind, copied⟩ := fragment.exists_toList_indent
    refine ⟨front, _, back, shape, rfl, ?_⟩
    rw [copied]
    exact fragment.keepsComment_iff Fragment.margin.toList behind
  · intro table index charts made
    obtain ⟨_, _, rfl⟩ := ofCharts_eq_ok.mp made
    rw [List.forall_mem_map]
    exact forall₂_congr fun chart _ => chart.isPlain_caption

/-- A line feed in a label is replaced. -/
theorem keepsComment_script_feed :
    Fragment.KeepsComment [] (Fragment.text ⟨"a\nalert(1)", none, ""⟩).toList := by
  have member : (⟨"a\nalert(1)", none, ""⟩ : Fragment) ∈
      (ofFragments ⟨[], []⟩ .standard [⟨"a\nalert(1)", none, ""⟩]).fragments :=
    List.mem_singleton_self _
  exact ((keepsComment_script _ "").1 _ member).1.mpr (by simp [Fragment.IsPlain])

/-- What stands behind a line separator in the name of a column is code. -/
theorem keepsComment_script_separator :
    ∃ dashboard, ofCharts ⟨[⟨"a\u2028alert(1)", .integer⟩], [[.integer 1]]⟩ .standard
        [⟨.rowChart, .single "a\u2028alert(1)", .none, .standard⟩] = .ok dashboard ∧
      ∃ fragment ∈ dashboard.fragments,
        ¬ Fragment.KeepsComment [] fragment.text.toList ∧
        (Lexeme.ofText fragment.text).head? = some (.comment " RowChart(a".toList) := by
  refine ⟨_, rfl, _, List.mem_singleton_self _, ?_, ?_⟩
  · rw [Fragment.keepsComment_text]
    intro plain
    have fields := (Chart.isPlain_caption _).mp plain
    have field := fields "a\u2028alert(1)" (List.mem_singleton_self _)
    exact (field '\u2028' (by simp)).1 rfl
  · rw [Fragment.head?_ofText]
    decide

end Dashboard

end LinkedViews
