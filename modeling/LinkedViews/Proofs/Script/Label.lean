import LinkedViews.Proofs.Script.Spelling
import LinkedViews.Proofs.Text.ClosingTag
import LinkedViews.Proofs.Text.Html
import LinkedViews.Script.Program

/-!
The label over a chart. It goes through two writers: it is escaped for markup, and the markup stands
in a literal of the script. Each of them is undone by its reader, so what is shown is the label.
-/

namespace LinkedViews

namespace Json

variable {c : Char} {text body shown front rest : List Char}

/-! ## Quotes -/

/-- Whether a text that is read from its front ends in a backslash that the next character belongs
to. A backslash behind such a backslash stands for itself. -/
def escapesNext (text : List Char) : Bool :=
  text.foldl (fun escaped c => !escaped && c = '\\') false

/-- What a string in double quotes is that can stand in a script element: of the quotes behind the
first one, the last is the only one that no backslash escapes. -/
structure IsLiteral (shown : List Char) : Prop where
  quoted : ∃ body, shown = '"' :: body ++ ['"']
  closes : ∀ front rest, shown = '"' :: front ++ '"' :: rest →
    (escapesNext front = true ↔ rest ≠ [])
  printable : ∀ c ∈ shown, 0x20 ≤ c.toNat
  guarded : ¬ ['<', '/'] <:+: shown

theorem escapesNext_append (level : escapesNext front = false) (rest : List Char) :
    escapesNext (front ++ rest) = escapesNext rest := by
  rw [escapesNext, List.foldl_append, ← escapesNext, level]
  rfl

/-- A written character is complete, and a quote in it is behind a backslash. -/
theorem Escaped.level (way : Escaped c shown) :
    escapesNext shown = false ∧
      ∀ front rest, shown = front ++ '"' :: rest → escapesNext front = true := by
  cases way with
  | plain quote backslash printable =>
      refine ⟨by simp [escapesNext, backslash], fun front rest same => ?_⟩
      have member : '"' ∈ [c] := same ▸ List.mem_append_right front List.mem_cons_self
      exact absurd (List.mem_singleton.mp member).symm quote
  | lettered letter stands =>
      refine ⟨by simp [escapesNext], fun front rest same => ?_⟩
      match front with
      | [] => exact absurd (List.cons.inj same).1 (by decide)
      | [d] =>
          rw [← (List.cons.inj same).1]
          rfl
      | d :: e :: more => simp at same
  | control below =>
      have high := hexDigitChar_plain (c.toNat / 16) (by omega)
      have low := hexDigitChar_plain (c.toNat % 16) (by omega)
      rw [padLeft_hexDigits _ below]
      refine ⟨by simp [escapesNext, low.2.1], fun front rest same => ?_⟩
      have absent : '"' ∉ ['\\', 'u', '0', '0', Numeral.hexDigitChar (c.toNat / 16),
          Numeral.hexDigitChar (c.toNat % 16)] := by
        simp [high.1.symm, low.1.symm]
      exact absurd (same ▸ List.mem_append_right front List.mem_cons_self) absent

theorem Escaped.printable (way : Escaped c shown) : ∀ d ∈ shown, 0x20 ≤ d.toNat := by
  cases way with
  | plain quote backslash printable => exact List.forall_mem_singleton.mpr printable
  | lettered letter stands =>
      have high : 0x20 ≤ letter.toNat := by
        unfold Reader.unletter? at stands
        split at stands <;> first | contradiction | decide
      simp [high]
  | control below =>
      have high := hexDigitChar_plain (c.toNat / 16) (by omega)
      have low := hexDigitChar_plain (c.toNat % 16) (by omega)
      rw [padLeft_hexDigits _ below]
      simp [high.2.2, low.2.2]

/-- No quote in a body ends the string that the body stands in, and nor does its last character
belong to the quote behind the body. -/
theorem Spells.level (spells : Spells text body) :
    escapesNext body = false ∧
      ∀ front rest, body = front ++ '"' :: rest → escapesNext front = true := by
  induction spells with
  | nil => exact ⟨rfl, fun front rest same => by simp at same⟩
  | cons way later ih =>
      rename_i c shown text body
      obtain ⟨level, inside⟩ := way.level
      refine ⟨(escapesNext_append level body).trans ih.1, fun front rest same => ?_⟩
      -- The quote stands either behind the first written character or within it.
      obtain ⟨more, rfl, there⟩ | ⟨tail, here, whole⟩ := List.append_eq_append_iff.mp same
      · rw [escapesNext_append level]
        exact ih.2 more rest there
      · cases tail with
        | nil =>
            rw [List.append_nil] at here
            rw [← here, ← List.append_nil shown, escapesNext_append level]
            exact ih.2 [] rest whole.symm
        | cons d others =>
            obtain ⟨rfl, _⟩ := List.cons.inj whole
            exact inside front others here

theorem Spells.printable (spells : Spells text body) : ∀ c ∈ body, 0x20 ≤ c.toNat := by
  induction spells with
  | nil => exact List.forall_mem_nil _
  | cons way later ih => exact List.forall_mem_append.mpr ⟨way.printable, ih⟩

theorem isLiteral_literal (text : String) : IsLiteral (literal text).toList := by
  have spells := spells_literalBody text.toList
  obtain ⟨level, inside⟩ := spells.level
  refine ⟨⟨literalBody text.toList, toList_literal text⟩, fun front rest same => ?_, ?_, ?_⟩
  · rw [toList_literal] at same
    have body : literalBody text.toList ++ ['"'] = front ++ '"' :: rest := (List.cons.inj same).2
    cases rest using List.reverseRecOn with
    | nil =>
        obtain rfl : literalBody text.toList = front := List.append_cancel_right body
        simp [level]
    | append_singleton rest last =>
        rw [← List.cons_append, ← List.append_assoc] at body
        have own := inside front rest (List.append_inj_left' body rfl)
        simp [own]
  · rw [toList_literal]
    refine List.forall_mem_append.mpr ⟨List.forall_mem_cons.mpr ⟨by decide, spells.printable⟩, ?_⟩
    exact List.forall_mem_singleton.mpr (by decide)
  · rw [literal, scriptText, String.toList_ofList]
    exact Text.not_infix_guardTags _

end Json

theorem Script.text_around (front text back : String) :
    Script.text (code front ++ [.literal text, .code back]) =
      front ++ Json.literal text ++ back := by
  simp [Script.text, code, Piece.text, String.append_assoc]

namespace Program

/-- The call that appends the container of a chart, with its label as one more literal. -/
def appendCall (argument : String) : String :=
  "element.append('<div style=\"float: left;\" id=\"' + chartId + '\"><strong>' + " ++ argument ++
    " + '</strong><div style=\"clear: both;\"></div></div>');"

theorem text_eq (program : Program) :
    program.text = String.intercalate "\n" (program.statements.map Script.text) :=
  Script.text_separated "\n" program.statements

theorem text_appendCall (program : Program) :
    program.statements[1]?.map Script.text =
      some (appendCall (Json.literal (Text.Html.escape program.label))) :=
  congrArg some (Script.text_around _ _ _)

/-- Texts are shown as what they are. An escaped text has no character with a meaning in markup but
ampersands that begin its entities, and these give the text back; a literal is one string that does
not end its script, and is read as its text. So the literal in the second statement of a program is
read as the escaped label, and that as the label. -/
theorem label_shown (program : Program) (text : String) :
    Text.Html.IsEscaped (Text.Html.escape text).toList ∧
      Text.Html.decode (Text.Html.escape text).toList = text.toList ∧
      Function.Injective Text.Html.escape ∧
      Json.IsLiteral (Json.literal text).toList ∧
      Json.ofText Json.Reader.text (Json.literal text) = .ok text ∧
      program.text = String.intercalate "\n" (program.statements.map Script.text) ∧
      ∃ argument shown,
        program.statements[1]?.map Script.text = some (appendCall argument) ∧
        Json.ofText Json.Reader.text argument = .ok shown ∧
        shown = Text.Html.escape program.label ∧
        Text.Html.decode shown.toList = program.label.toList := by
  refine ⟨?_, Text.Html.decode_escape text, Text.Html.escape_injective,
    Json.isLiteral_literal text, Json.ofText_literal text, text_eq program, ?_⟩
  · rw [Text.Html.toList_escape]
    exact Text.Html.isEscaped_escapeChars text.toList
  · exact ⟨_, _, text_appendCall program, Json.ofText_literal _, rfl, Text.Html.decode_escape _⟩

end Program

end LinkedViews
