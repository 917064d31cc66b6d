import LinkedViews.Text.Html

/-!
Escaped texts as a reader of markup takes them. Each ampersand begins an entity, no other character
has a meaning in markup, and reading the entities once from the front gives the text back, whatever
entities the text itself seems to hold.
-/

namespace LinkedViews.Text.Html

variable {c : Char} {text front rest shown : List Char}

/-- What stands behind the ampersand of an entity, with the character that the entity stands for. -/
def entities : List (List Char × Char) :=
  [(['a', 'm', 'p', ';'], '&'), (['l', 't', ';'], '<'), (['g', 't', ';'], '>'),
    (['q', 'u', 'o', 't', ';'], '"'), (['#', '3', '9', ';'], '\'')]

/-- Reads the entities in one pass. What an entity gives is not read again, and an ampersand that
begins none stands for itself. -/
def decode : List Char → List Char
  | '&' :: 'a' :: 'm' :: 'p' :: ';' :: rest => '&' :: decode rest
  | '&' :: 'l' :: 't' :: ';' :: rest => '<' :: decode rest
  | '&' :: 'g' :: 't' :: ';' :: rest => '>' :: decode rest
  | '&' :: 'q' :: 'u' :: 'o' :: 't' :: ';' :: rest => '"' :: decode rest
  | '&' :: '#' :: '3' :: '9' :: ';' :: rest => '\'' :: decode rest
  | c :: rest => c :: decode rest
  | [] => []

/-! ## Characters -/

/-- The two ways in which a character is written. -/
inductive Written (c : Char) : List Char → Prop where
  | entity (name : List Char) (listed : (name, c) ∈ entities) : Written c ('&' :: name)
  | plain (unmarked : entity? c = none) : Written c [c]

theorem written_escapeChar (c : Char) : Written c (escapeChar c) := by
  unfold escapeChar
  split
  · rename_i name entity
    unfold entity? at entity
    split at entity
    all_goals first
      | contradiction
      | (obtain rfl := Option.some.inj entity; exact .entity _ (by decide))
  · rename_i unmarked
    exact .plain unmarked

theorem entity?_of_mem (member : c ∈ ['<', '>', '"', '\'', '&']) : entity? c ≠ none := by
  simp only [List.mem_cons, List.not_mem_nil, or_false] at member
  obtain rfl | rfl | rfl | rfl | rfl := member <;> decide

/-- Nothing behind the ampersand of an entity has a meaning of its own. -/
theorem notMem_entity {name : List Char} {d : Char} (listed : (name, d) ∈ entities)
    (mark : c ∈ ['<', '>', '"', '\'', '&']) : c ∉ name := by
  have plain : ∀ entity ∈ entities, ∀ mark ∈ ['<', '>', '"', '\'', '&'], mark ∉ entity.1 := by
    simp [entities]
  exact plain _ listed c mark

theorem decode_entity {name : List Char} (listed : (name, c) ∈ entities) (rest : List Char) :
    decode ('&' :: (name ++ rest)) = c :: decode rest := by
  simp only [entities, List.mem_cons, Prod.mk.injEq, List.not_mem_nil, or_false] at listed
  obtain ⟨rfl, rfl⟩ | ⟨rfl, rfl⟩ | ⟨rfl, rfl⟩ | ⟨rfl, rfl⟩ | ⟨rfl, rfl⟩ := listed <;> rfl

theorem decode_plain (unmarked : c ≠ '&') (rest : List Char) :
    decode (c :: rest) = c :: decode rest := by
  rw [decode]
  all_goals exact fun _ same => absurd same unmarked

theorem Written.decode_append (way : Written c shown) (rest : List Char) :
    decode (shown ++ rest) = c :: decode rest := by
  cases way with
  | entity name listed => exact decode_entity listed rest
  | plain unmarked =>
      have other : c ≠ '&' := by
        rintro rfl
        contradiction
      exact decode_plain other rest

/-! ## Texts -/

theorem decode_escapeChars (text : List Char) : decode (escapeChars text) = text := by
  induction text with
  | nil => rfl
  | cons c text ih =>
      rw [escapeChars, List.flatMap_cons, ← escapeChars,
        (written_escapeChar c).decode_append, ih]

/-- What stands in markup for a text, as content or between quotes of either kind. -/
structure IsEscaped (shown : List Char) : Prop where
  unmarked : '<' ∉ shown ∧ '>' ∉ shown ∧ '"' ∉ shown ∧ '\'' ∉ shown
  entity : ∀ rest, '&' :: rest <:+ shown → ∃ entity ∈ entities, entity.1 <+: rest

theorem notMem_escapeChars (mark : c ∈ ['<', '>', '"', '\'']) (text : List Char) :
    c ∉ escapeChars text := by
  have known : c ∈ ['<', '>', '"', '\'', '&'] := List.mem_append_left ['&'] mark
  have other : c ≠ '&' := by
    rintro rfl
    exact absurd mark (by decide)
  intro member
  obtain ⟨d, _, own⟩ := List.mem_flatMap.mp member
  have way := written_escapeChar d
  generalize escapeChar d = shown at own way
  cases way with
  | entity name listed =>
      obtain same | inside := List.mem_cons.mp own
      · exact other same
      · exact notMem_entity listed known inside
  | plain unmarked =>
      rw [← List.mem_singleton.mp own] at unmarked
      exact entity?_of_mem known unmarked

theorem suffix_of_suffix_append (absent : c ∉ front) (found : c :: rest <:+ front ++ text) :
    c :: rest <:+ text := by
  induction front with
  | nil => exact found
  | cons d front ih =>
      rw [List.cons_append, List.suffix_cons_iff] at found
      obtain same | later := found
      · rw [(List.cons.inj same).1] at absent
        exact absurd List.mem_cons_self absent
      · exact ih (fun member => absent (List.mem_cons_of_mem d member)) later

theorem exists_entity_of_suffix (found : '&' :: rest <:+ escapeChars text) :
    ∃ entity ∈ entities, entity.1 <+: rest := by
  induction text with
  | nil => exact absurd (List.suffix_nil.mp found) (List.cons_ne_nil _ _)
  | cons c text ih =>
      rw [escapeChars, List.flatMap_cons, ← escapeChars] at found
      have way := written_escapeChar c
      generalize escapeChar c = shown at found way
      -- The ampersand is the first character of what is written or stands behind all of it.
      cases way with
      | entity name listed =>
          rw [List.cons_append, List.suffix_cons_iff] at found
          obtain here | later := found
          · exact ⟨_, listed, (List.cons.inj here).2 ▸ List.prefix_append name _⟩
          · exact ih (suffix_of_suffix_append (notMem_entity listed (by decide)) later)
      | plain unmarked =>
          have absent : '&' ∉ [c] := by
            intro member
            rw [← List.mem_singleton.mp member] at unmarked
            contradiction
          exact ih (suffix_of_suffix_append absent found)

theorem isEscaped_escapeChars (text : List Char) : IsEscaped (escapeChars text) where
  unmarked := ⟨notMem_escapeChars (by decide) text, notMem_escapeChars (by decide) text,
    notMem_escapeChars (by decide) text, notMem_escapeChars (by decide) text⟩
  entity _ := exists_entity_of_suffix

theorem toList_escape (text : String) : (escape text).toList = escapeChars text.toList :=
  String.toList_ofList

theorem decode_escape (text : String) : decode (escape text).toList = text.toList := by
  rw [toList_escape, decode_escapeChars]

theorem escape_injective : Function.Injective escape := by
  intro text other same
  have read := decode_escape text
  rw [same, decode_escape] at read
  exact (String.toList_inj.mp read).symm

end LinkedViews.Text.Html
