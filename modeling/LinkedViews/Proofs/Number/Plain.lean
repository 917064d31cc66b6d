import LinkedViews.Proofs.Number.Written
import LinkedViews.Proofs.Text.Quoted

/-!
Numbers in listings. A number is found again in its plain text, and the text ends where characters
of another kind begin; only what is no number has one text for many bit patterns.
-/

namespace LinkedViews.Numeral

-- Opened, the number of units in one is a numeral of a thousand bits.
attribute [local irreducible] Binary64.unitsPerOne

variable {c : Char} {x y : Binary64} {front back : List Char}

/-- The characters of plain texts, with those of the words for infinity and for no number. -/
def isPlainPart (c : Char) : Bool := c.isDigit || c ∈ ['-', '.', 'i', 'n', 'f', 'N', 'a']

theorem isPlainPart_of_isDigit (digit : c.isDigit = true) : isPlainPart c = true := by
  simp [isPlainPart, digit]

theorem isPlainPart_of_mem_positional {d : Decimal} (member : c ∈ positional false d) :
    isPlainPart c = true := by
  rcases Int.lt_or_le d.exponent 0 with fractional | whole
  · obtain ⟨whole, fraction, shape, _, _, digits, _⟩ := positional_point fractional
    rw [shape, List.mem_append, List.mem_cons] at member
    obtain before | rfl | behind := member
    · exact isPlainPart_of_isDigit (digits c (List.mem_append_left _ before))
    · rfl
    · exact isPlainPart_of_isDigit (digits c (List.mem_append_right _ behind))
  · rw [positional_whole whole] at member
    exact isPlainPart_of_isDigit (isDigit_of_mem_filled member)

/-- Behind its sign, the text of a number is a word or begins with a digit. -/
structure IsUnsigned (text : List Char) : Prop where
  parts : ∀ c ∈ text, isPlainPart c = true
  head : ∃ c rest, text = c :: rest ∧ (c.isDigit = true ∨ c = 'i')

theorem isUnsigned_positional (d : Decimal) : IsUnsigned (positional false d) := by
  obtain ⟨c, rest, shape, digit⟩ := head_positional d
  exact ⟨fun c => isPlainPart_of_mem_positional, c, rest, shape, .inl digit⟩

theorem isUnsigned_infinity : IsUnsigned ['i', 'n', 'f'] :=
  ⟨List.all_eq_true.mp (by decide), 'i', ['n', 'f'], rfl, .inr rfl⟩

theorem plain_cases (x : Binary64) :
    plain x = "NaN" ∨ ∃ text, plain x = signed x.isNegative text ∧ IsUnsigned text := by
  unfold plain
  split
  · exact .inl rfl
  · split
    · exact .inr ⟨_, rfl, isUnsigned_infinity⟩
    · exact .inr ⟨_, rfl, isUnsigned_positional _⟩

theorem isPlainPart_of_mem_plain (member : c ∈ (plain x).toList) : isPlainPart c = true := by
  obtain word | ⟨text, shape, unsigned⟩ := plain_cases x
  · have parts : ∀ c ∈ "NaN".toList, isPlainPart c = true := List.all_eq_true.mp (by decide)
    rw [word] at member
    exact parts c member
  · rw [shape, signed, String.toList_ofList] at member
    split at member
    · obtain rfl | own := List.mem_cons.mp member
      · rfl
      · exact unsigned.parts c own
    · exact unsigned.parts c member

theorem head_plain (x : Binary64) :
    ∃ c rest, (plain x).toList = c :: rest ∧ (c.isDigit = true ∨ c ∈ ['-', 'i', 'N']) := by
  obtain word | ⟨text, shape, unsigned⟩ := plain_cases x
  · exact ⟨'N', ['a', 'N'], congrArg String.toList word, by decide⟩
  · rw [shape, signed, String.toList_ofList]
    split
    · exact ⟨'-', text, rfl, by decide⟩
    · obtain ⟨c, rest, rfl, first⟩ := unsigned.head
      refine ⟨c, rest, rfl, first.imp_right ?_⟩
      rintro rfl
      decide

/-- Of the texts of numbers only that for no number is shared. -/
theorem eq_of_plain_eq (number : x.isNaN = false) (same : plain x = plain y) : x = y := by
  have read := readBinary64?_plain x
  rw [same, readBinary64?_plain, number, Option.some.injEq] at read
  split at read
  · have own : Binary64.nan = x := read
    rw [← own] at number
    contradiction
  · exact read.symm

theorem plain_append_inj (number : x.isNaN = false)
    (stop : ∀ c ∈ front.head?, isPlainPart c = false)
    (ending : ∀ c ∈ back.head?, isPlainPart c = false)
    (same : (plain x).toList ++ front = (plain y).toList ++ back) : x = y ∧ front = back := by
  obtain ⟨texts, behind⟩ := Text.append_inj_of_run (fun c => isPlainPart_of_mem_plain)
    (fun c => isPlainPart_of_mem_plain) stop ending same
  exact ⟨eq_of_plain_eq number (String.toList_inj.mp texts), behind⟩

end LinkedViews.Numeral
