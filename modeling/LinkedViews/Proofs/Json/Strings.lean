import LinkedViews.Proofs.Json.Grammar
import LinkedViews.Proofs.Text.ClosingTag

/-!
Marks in the text of a value. A mark that begins with `<` and has none of the characters between
strings can only stand within a string, and it stands in the text of that string as well.
-/

namespace LinkedViews.Json

mutual

/-- The strings of a value, the names of its members among them. -/
def strings : Json → List String
  | .text value => [value]
  | .array items => stringsOfItems items
  | .object members => stringsOfMembers members
  | .null => []
  | .boolean _ => []
  | .integer _ => []
  | .real _ => []

def stringsOfItems : List Json → List String
  | [] => []
  | item :: rest => strings item ++ stringsOfItems rest

def stringsOfMembers : List (String × Json) → List String
  | [] => []
  | member :: rest => stringsOfMember member ++ stringsOfMembers rest

def stringsOfMember : String × Json → List String
  | (name, value) => name :: strings value

end

/-- A mark that begins with `<` and goes on with nothing that stands between strings. -/
structure IsMark (mark : List Char) : Prop where
  begins : mark.head? = some '<'
  plain : ∀ c ∈ ['"', '\\', ',', ':', '[', ']', '\x7b', '\x7d'], c ∉ mark

variable {mark text body front back : List Char} {c : Char}

theorem IsMark.isInfix_of_append (isMark : IsMark mark) (absent : '<' ∉ front)
    (found : mark <:+: front ++ back) : mark <:+: back := by
  induction front with
  | nil => exact found
  | cons c rest ih =>
      rw [List.cons_append, List.infix_cons_iff] at found
      cases found with
      | inl here =>
          obtain ⟨tail, rfl⟩ := List.head?_eq_some_iff.mp isMark.begins
          rw [(List.cons_prefix_cons.mp here).1] at absent
          exact absurd List.mem_cons_self absent
      | inr later => exact ih (fun member => absent (List.mem_cons_of_mem c member)) later

theorem IsMark.not_isInfix (isMark : IsMark mark) (absent : '<' ∉ text) : ¬ mark <:+: text := by
  intro found
  obtain ⟨tail, rfl⟩ := List.head?_eq_some_iff.mp isMark.begins
  exact absent (found.subset List.mem_cons_self)

/-- A mark within delimiters lies between them. -/
theorem IsMark.isInfix_of_enclosed (isMark : IsMark mark) {opening closing : Char}
    (delimits : ∀ c ∈ [opening, closing], c ∈ ['"', '\\', ',', ':', '[', ']', '\x7b', '\x7d'])
    (found : mark <:+: opening :: text ++ [closing]) : mark <:+: text := by
  have first := isMark.plain opening (delimits opening (by simp))
  have last := isMark.plain closing (delimits closing (by simp))
  have empty : ¬ mark <:+: [] := isMark.not_isInfix List.not_mem_nil
  rw [Text.infix_append_cons_iff last, or_iff_left empty, ← List.nil_append (opening :: text),
    Text.infix_append_cons_iff first, or_iff_right empty] at found
  exact found

/-- Without a backslash, what a body begins with its text begins with. -/
theorem Spells.isPrefix_of_isPrefix (spells : Spells text body) (plain : '\\' ∉ mark)
    (begins : mark <+: body) : mark <+: text := by
  induction spells generalizing mark with
  | nil => exact begins
  | cons way later ih =>
      cases mark with
      | nil => exact List.nil_prefix
      | cons d rest =>
          cases way with
          | plain =>
              obtain ⟨rfl, others⟩ := List.cons_prefix_cons.mp begins
              exact List.cons_prefix_cons.mpr
                ⟨rfl, ih (fun member => plain (List.mem_cons_of_mem _ member)) others⟩
          | lettered | control =>
              rw [(List.cons_prefix_cons.mp begins).1] at plain
              exact absurd List.mem_cons_self plain

theorem Spells.isInfix_of_isInfix (spells : Spells text body) (isMark : IsMark mark)
    (found : mark <:+: body) : mark <:+: text := by
  have noBackslash : '\\' ∉ mark := isMark.plain '\\' (by simp)
  induction spells with
  | nil => exact found
  | cons way later ih =>
      rename_i c shown text body
      by_cases opening : '<' ∈ shown
      · obtain ⟨rfl, rfl⟩ := way.eq_of_mem opening
        cases List.infix_cons_iff.mp found with
        | inl here =>
            exact ((Spells.cons way later).isPrefix_of_isPrefix noBackslash here).isInfix
        | inr there => exact List.infix_cons (ih there)
      · exact List.infix_cons (ih (isMark.isInfix_of_append opening found))

namespace Grammar

section Form

variable (form : Form)

theorem not_infix_scalar (isMark : IsMark mark) {value : Json}
    (noText : ∀ text, value ≠ .text text) : ¬ mark <:+: form.write (scalarChars value) := by
  obtain ⟨absent, same⟩ := form.write_scalarChars noText
  rw [same]
  exact isMark.not_isInfix absent

theorem infix_of_quoteChars (isMark : IsMark mark)
    (found : mark <:+: form.write (quoteChars text)) : mark <:+: text := by
  obtain ⟨body, shape, spells⟩ := form.write_quoteChars text
  rw [shape] at found
  exact spells.isInfix_of_isInfix isMark (isMark.isInfix_of_enclosed (by simp) found)

theorem infix_of_separated (isMark : IsMark mark) {item next : List Char}
    {others : List (List Char)}
    (found : mark <:+: form.write (separated [','] (item :: next :: others))) :
    mark <:+: form.write item ∨ mark <:+: form.write (separated [','] (next :: others)) := by
  rw [write_separated, Text.infix_append_cons_iff (isMark.plain ',' (by simp))] at found
  exact found

mutual

theorem infix_strings (isMark : IsMark mark) : (value : Json) →
    mark <:+: form.write (compactChars value) → ∃ text ∈ strings value, mark <:+: text.toList
  | .null, found => by
      rw [compactChars] at found
      exact absurd found (not_infix_scalar form isMark fun _ => Json.noConfusion)
  | .boolean value, found => by
      rw [compactChars] at found
      exact absurd found (not_infix_scalar form isMark fun _ => Json.noConfusion)
  | .integer value, found => by
      rw [compactChars] at found
      exact absurd found (not_infix_scalar form isMark fun _ => Json.noConfusion)
  | .real value, found => by
      rw [compactChars] at found
      exact absurd found (not_infix_scalar form isMark fun _ => Json.noConfusion)
  | .text value, found => by
      rw [compactChars, scalarChars] at found
      rw [strings]
      exact ⟨value, List.mem_singleton_self value, infix_of_quoteChars form isMark found⟩
  | .array items, found => by
      rw [compactChars, Form.write_enclosed _ (by simp)] at found
      rw [strings]
      exact infix_stringsOfItems isMark items (isMark.isInfix_of_enclosed (by simp) found)
  | .object members, found => by
      rw [compactChars, Form.write_enclosed _ (by simp)] at found
      rw [strings]
      exact infix_stringsOfMembers isMark members (isMark.isInfix_of_enclosed (by simp) found)

theorem infix_stringsOfItems (isMark : IsMark mark) : (items : List Json) →
    mark <:+: form.write (separated [','] (compactItems items)) →
      ∃ text ∈ stringsOfItems items, mark <:+: text.toList
  | [], found => by
      rw [compactItems, separated, form.write_nil] at found
      exact absurd found (isMark.not_isInfix List.not_mem_nil)
  | [item], found => by
      obtain ⟨text, member, here⟩ := infix_strings isMark item found
      exact ⟨text, List.mem_append_left _ member, here⟩
  | item :: next :: others, found => by
      cases infix_of_separated form isMark found with
      | inl first =>
          obtain ⟨text, member, here⟩ := infix_strings isMark item first
          exact ⟨text, List.mem_append_left _ member, here⟩
      | inr later =>
          obtain ⟨text, member, here⟩ := infix_stringsOfItems isMark (next :: others) later
          exact ⟨text, List.mem_append_right _ member, here⟩

theorem infix_stringsOfMembers (isMark : IsMark mark) : (members : List (String × Json)) →
    mark <:+: form.write (separated [','] (compactMembers members)) →
      ∃ text ∈ stringsOfMembers members, mark <:+: text.toList
  | [], found => by
      rw [compactMembers, separated, form.write_nil] at found
      exact absurd found (isMark.not_isInfix List.not_mem_nil)
  | [member], found => by
      obtain ⟨text, inside, here⟩ := infix_stringsOfMember isMark member found
      exact ⟨text, List.mem_append_left _ inside, here⟩
  | member :: next :: others, found => by
      cases infix_of_separated form isMark found with
      | inl first =>
          obtain ⟨text, inside, here⟩ := infix_stringsOfMember isMark member first
          exact ⟨text, List.mem_append_left _ inside, here⟩
      | inr later =>
          obtain ⟨text, inside, here⟩ := infix_stringsOfMembers isMark (next :: others) later
          exact ⟨text, List.mem_append_right _ inside, here⟩

theorem infix_stringsOfMember (isMark : IsMark mark) : (member : String × Json) →
    mark <:+: form.write (compactMember member) →
      ∃ text ∈ stringsOfMember member, mark <:+: text.toList
  | (name, value), found => by
      rw [compactMember, form.write_append_cons _ _ (by decide) (by decide),
        Text.infix_append_cons_iff (isMark.plain ':' (by simp))] at found
      cases found with
      | inl own => exact ⟨name, List.mem_cons_self, infix_of_quoteChars form isMark own⟩
      | inr behind =>
          obtain ⟨text, member, here⟩ := infix_strings isMark value behind
          exact ⟨text, List.mem_cons_of_mem name member, here⟩

end

end Form

/-- The strings of a value are the only places of a mark in its text. -/
theorem infix_scriptText (isMark : IsMark mark) {value : Json}
    (found : mark <:+: value.scriptText.toList) : ∃ text ∈ strings value, mark <:+: text.toList := by
  rw [scriptText, String.toList_ofList] at found
  exact infix_strings .guarded isMark value found

end Grammar

end LinkedViews.Json
