import LinkedViews.Proofs.Json.Strings

/-!
The text of a value on indented lines stands for the value as well: the line ends and margins are
between its parts only, where the grammar passes over white space. A mark without controls is in
that text exactly if it is in a string of the value.
-/

namespace LinkedViews.Json.Grammar

variable {c : Char} {gap shown inner rest : List Char} {fuel depth : Nat}

/-! ## White space -/

theorem skip_append (blank : ∀ c ∈ gap, Reader.isSpace c = true) (rest : List Char) :
    skip (gap ++ rest) = skip rest :=
  List.dropWhile_append_of_pos blank

theorem value?_skip (blank : ∀ c ∈ gap, Reader.isSpace c = true) :
    value? fuel (gap ++ shown) = value? fuel shown := by
  cases fuel with
  | zero => rfl
  | succ fuel => rw [value?, value?, skip_append blank]

theorem items?_skip (blank : ∀ c ∈ gap, Reader.isSpace c = true) :
    items? fuel (gap ++ shown) = items? fuel shown := by
  cases fuel with
  | zero => rfl
  | succ fuel => rw [items?, items?, value?_skip blank]

theorem member?_skip (blank : ∀ c ∈ gap, Reader.isSpace c = true) :
    member? fuel (gap ++ shown) = member? fuel shown := by
  cases fuel with
  | zero => rfl
  | succ fuel => rw [member?, member?, skip_append blank]

theorem members?_skip (blank : ∀ c ∈ gap, Reader.isSpace c = true) :
    members? fuel (gap ++ shown) = members? fuel shown := by
  cases fuel with
  | zero => rfl
  | succ fuel => rw [members?, members?, member?_skip blank]

/-- Behind the bracket of a list white space makes no difference. -/
theorem value?_list_skip (blank : ∀ c ∈ gap, Reader.isSpace c = true) :
    value? (fuel + 1) ('[' :: (gap ++ inner)) = value? (fuel + 1) ('[' :: inner) := by
  have bracket : Reader.isSpace '[' = false := by decide
  have own (shown : List Char) : value? (fuel + 1) ('[' :: shown) =
      if (skip shown).head? = some ']' then some (.array [], (skip shown).tail)
      else (items? fuel shown).map fun found => (.array found.1, found.2) := by
    rw [value?, skip_cons bracket]
    rfl
  rw [own, own, skip_append blank, items?_skip blank]

theorem value?_object_skip (blank : ∀ c ∈ gap, Reader.isSpace c = true) :
    value? (fuel + 1) ('\x7b' :: (gap ++ inner)) = value? (fuel + 1) ('\x7b' :: inner) := by
  have brace : Reader.isSpace '\x7b' = false := by decide
  have own (shown : List Char) : value? (fuel + 1) ('\x7b' :: shown) =
      if (skip shown).head? = some '\x7d' then some (.object [], (skip shown).tail)
      else (members? fuel shown).map fun found => (.object found.1, found.2) := by
    rw [value?, skip_cons brace]
    rfl
  rw [own, own, skip_append blank, members?_skip blank]

theorem isSpace_newline (depth : Nat) : ∀ c ∈ newline depth, Reader.isSpace c = true := by
  intro c member
  obtain rfl | space := List.mem_cons.mp member
  · rfl
  · rw [List.eq_of_mem_replicate space]
    rfl

theorem ends_newline (depth : Nat) (rest : List Char) : Ends (newline depth ++ rest) :=
  .cons _ (by decide)

/-! ## Values on lines -/

theorem separated_cons_cons (separator item next : List Char) (others : List (List Char)) :
    separated separator (item :: next :: others) =
      item ++ separator ++ separated separator (next :: others) := by
  rw [separated]
  exact List.cons_ne_nil next others

theorem spread_cons (depth : Nat) (opening closing : Char) (item : List Char)
    (others : List (List Char)) :
    spread depth opening closing (item :: others) =
      opening :: (newline (depth + 1) ++ (separated (',' :: newline (depth + 1)) (item :: others) ++
        (newline depth ++ [closing]))) := by
  rw [spread, if_neg (List.cons_ne_nil item others)]
  simp only [List.cons_append, List.append_assoc]

theorem exists_opening_pretty (depth : Nat) (value : Json) :
    ∃ c rest, prettyChars depth value = c :: rest ∧ isOpening c = true := by
  cases value with
  | array items =>
      rw [prettyChars, spread]
      split
      · exact ⟨_, _, rfl, by decide⟩
      · exact ⟨_, _, rfl, by decide⟩
  | object members =>
      rw [prettyChars, spread]
      split
      · exact ⟨_, _, rfl, by decide⟩
      · exact ⟨_, _, rfl, by decide⟩
  | _ =>
      rw [prettyChars]
      exact isOpening_scalar _

theorem exists_separated (separator item : List Char) (others : List (List Char)) :
    ∃ rest, separated separator (item :: others) = item ++ rest := by
  cases others with
  | nil => exact ⟨[], (List.append_nil item).symm⟩
  | cons next more => exact ⟨_, by rw [separated_cons_cons, List.append_assoc]⟩

mutual

/-- Each step takes up a character, or is followed by one that does. -/
theorem value?_prettyChars : (value : Json) → (depth fuel : Nat) → (rest : List Char) →
    2 * (prettyChars depth value).length ≤ fuel → Ends rest →
      value? (fuel + 1) (prettyChars depth value ++ rest) = some (value.written, rest)
  | .null, _, fuel, rest, enough, ends => value?_compactChars .plain .null fuel rest enough ends
  | .boolean value, _, fuel, rest, enough, ends =>
      value?_compactChars .plain (.boolean value) fuel rest enough ends
  | .integer value, _, fuel, rest, enough, ends =>
      value?_compactChars .plain (.integer value) fuel rest enough ends
  | .real value, _, fuel, rest, enough, ends =>
      value?_compactChars .plain (.real value) fuel rest enough ends
  | .text value, _, fuel, rest, enough, ends =>
      value?_compactChars .plain (.text value) fuel rest enough ends
  | .array [], _, fuel, rest, enough, ends =>
      value?_compactChars .plain (.array []) fuel rest enough ends
  | .object [], _, fuel, rest, enough, ends =>
      value?_compactChars .plain (.object []) fuel rest enough ends
  | .array (item :: others), depth, fuel, rest, enough, _ => by
      obtain ⟨c, inner, first, opens⟩ := exists_opening_pretty (depth + 1) item
      obtain ⟨more, front⟩ := exists_separated (',' :: newline (depth + 1))
        (prettyChars (depth + 1) item) (prettyItems (depth + 1) others)
      rw [prettyChars, prettyItems, spread_cons] at enough ⊢
      simp only [List.length_append, List.length_cons] at enough
      obtain ⟨fuel, rfl⟩ : ∃ less, fuel = less + 2 := ⟨fuel - 2, by omega⟩
      have read := items?_prettyItems (item :: others) (List.cons_ne_nil item others) (depth + 1)
        depth fuel rest (by rw [prettyItems]; omega)
      rw [prettyItems, front, first] at read
      simp only [List.append_assoc, List.cons_append] at read
      rw [front, first, List.cons_append, List.append_assoc, value?_list_skip (isSpace_newline _)]
      simp only [List.append_assoc, List.cons_append, List.nil_append]
      exact value?_list opens read
  | .object ((name, value) :: others), depth, fuel, rest, enough, _ => by
      obtain ⟨more, front⟩ := exists_separated (',' :: newline (depth + 1))
        (prettyMember (depth + 1) (name, value)) (prettyMembers (depth + 1) others)
      rw [prettyChars, prettyMembers, spread_cons] at enough ⊢
      simp only [List.length_append, List.length_cons] at enough
      obtain ⟨fuel, rfl⟩ : ∃ less, fuel = less + 3 := ⟨fuel - 3, by omega⟩
      have read := members?_prettyMembers ((name, value) :: others)
        (List.cons_ne_nil (name, value) others) (depth + 1) depth fuel rest
        (by rw [prettyMembers]; omega)
      rw [prettyMembers, front, prettyMember, quoteChars] at read
      simp only [List.append_assoc, List.cons_append] at read
      rw [front, prettyMember, quoteChars, List.cons_append, List.append_assoc,
        value?_object_skip (isSpace_newline _)]
      simp only [List.append_assoc, List.cons_append, List.nil_append]
      exact value?_object read

theorem items?_prettyItems : (items : List Json) → items ≠ [] → (depth outer fuel : Nat) →
    (rest : List Char) →
    2 * (separated (',' :: newline depth) (prettyItems depth items)).length ≤ fuel →
      items? (fuel + 2) (separated (',' :: newline depth) (prettyItems depth items) ++
          (newline outer ++ ']' :: rest)) = some (writtenItems items, rest)
  | [], nonempty, _, _, _, _, _ => absurd rfl nonempty
  | [item], _, depth, outer, fuel, rest, enough =>
      items?_last (value?_prettyChars item depth fuel _ enough (ends_newline outer _)) <| by
        rw [skip_append (isSpace_newline outer), skip_mark (by simp)]
  | item :: next :: others, _, depth, outer, fuel, rest, enough => by
      rw [prettyItems, prettyItems, separated_cons_cons, ← prettyItems] at enough ⊢
      simp only [List.length_append, List.length_cons] at enough
      obtain ⟨fuel, rfl⟩ : ∃ less, fuel = less + 1 := ⟨fuel - 1, by omega⟩
      have first := value?_prettyChars item depth (fuel + 1)
        (',' :: (newline depth ++ (separated (',' :: newline depth)
          (prettyItems depth (next :: others)) ++ (newline outer ++ ']' :: rest))))
        (by omega) (.cons _ (by decide))
      have later := items?_prettyItems (next :: others) (List.cons_ne_nil next others) depth outer
        fuel rest (by omega)
      rw [← items?_skip (isSpace_newline depth)] at later
      simp only [List.append_assoc, List.cons_append]
      exact items?_cons first later

theorem members?_prettyMembers : (members : List (String × Json)) → members ≠ [] →
    (depth outer fuel : Nat) → (rest : List Char) →
    2 * (separated (',' :: newline depth) (prettyMembers depth members)).length ≤ fuel →
      members? (fuel + 3) (separated (',' :: newline depth) (prettyMembers depth members) ++
          (newline outer ++ '\x7d' :: rest)) = some (writtenMembers members, rest)
  | [], nonempty, _, _, _, _, _ => absurd rfl nonempty
  | [member], _, depth, outer, fuel, rest, enough =>
      members?_last (member?_prettyMember member depth fuel _ enough (ends_newline outer _)) <| by
        rw [skip_append (isSpace_newline outer), skip_mark (by simp)]
  | member :: next :: others, _, depth, outer, fuel, rest, enough => by
      rw [prettyMembers, prettyMembers, separated_cons_cons, ← prettyMembers] at enough ⊢
      simp only [List.length_append, List.length_cons] at enough
      obtain ⟨fuel, rfl⟩ : ∃ less, fuel = less + 1 := ⟨fuel - 1, by omega⟩
      have first := member?_prettyMember member depth (fuel + 1)
        (',' :: (newline depth ++ (separated (',' :: newline depth)
          (prettyMembers depth (next :: others)) ++ (newline outer ++ '\x7d' :: rest))))
        (by omega) (.cons _ (by decide))
      have later := members?_prettyMembers (next :: others) (List.cons_ne_nil next others) depth
        outer fuel rest (by omega)
      rw [← members?_skip (isSpace_newline depth)] at later
      simp only [List.append_assoc, List.cons_append]
      exact members?_cons first later

theorem member?_prettyMember : (member : String × Json) → (depth fuel : Nat) →
    (rest : List Char) → 2 * (prettyMember depth member).length ≤ fuel → Ends rest →
      member? (fuel + 2) (prettyMember depth member ++ rest) = some (writtenMember member, rest)
  | (name, value), depth, fuel, rest, enough, ends => by
      rw [prettyMember, quoteChars] at enough ⊢
      simp only [List.length_append, List.length_cons] at enough
      have space : ∀ c ∈ [' '], Reader.isSpace c = true := by simp [Reader.isSpace]
      have read := value?_prettyChars value depth fuel rest (by omega) ends
      rw [← value?_skip space] at read
      have quoted := member?_quoted (spells_flatMap_escapeChar name.toList) read
      rw [String.ofList_toList] at quoted
      simpa [writtenMember] using quoted

end

theorem parse?_pretty (value : Json) : parse? value.pretty.toList = some value.written := by
  have read := value?_prettyChars value 0 (2 * (prettyChars 0 value).length) [] (Nat.le_refl _)
    fun c first => by contradiction
  rw [List.append_nil] at read
  rw [pretty, String.toList_ofList, parse?, read]
  rfl

/-! ## Marks -/

/-- A mark that a string shows as it is. -/
structure IsShownMark (mark : List Char) : Prop extends IsMark mark where
  printable : ∀ c ∈ mark, 0x20 ≤ c.toNat

variable {mark text front back item : List Char}

namespace IsShownMark

theorem escapeChar_eq (shown : IsShownMark mark) (member : c ∈ mark) : escapeChar c = [c] := by
  have solid := shown.printable c member
  have unlettered : letter? c = none := by
    unfold letter?
    split
    · exact absurd member (shown.plain '"' (by simp))
    · exact absurd member (shown.plain '\\' (by simp))
    all_goals first | rfl | exact absurd solid (by decide)
  rw [escapeChar, unlettered]
  exact if_neg (Nat.not_lt.mpr solid)

theorem notMem_feed (shown : IsShownMark mark) : '\n' ∉ mark := fun member =>
  absurd (shown.printable '\n' member) (by decide)

theorem infix_flatMap_escapeChar (shown : IsShownMark mark) :
    mark <:+: text.flatMap escapeChar ↔ mark <:+: text := by
  constructor
  · exact (spells_flatMap_escapeChar text).isInfix_of_isInfix shown.toIsMark
  · rintro ⟨front, back, rfl⟩
    have own : mark.flatMap escapeChar = mark := by
      rw [List.flatMap_def, List.map_congr_left fun c => shown.escapeChar_eq, ← List.flatMap_def,
        List.flatMap_singleton']
    rw [List.flatMap_append, List.flatMap_append, own]
    exact ⟨_, _, rfl⟩

theorem infix_enclosed (shown : IsShownMark mark) {opening closing : Char}
    (delimits : ∀ c ∈ [opening, closing], c ∈ ['"', '\\', ',', ':', '[', ']', '\x7b', '\x7d']) :
    mark <:+: opening :: text ++ [closing] ↔ mark <:+: text :=
  ⟨shown.isInfix_of_enclosed delimits, fun ⟨front, back, same⟩ =>
    ⟨opening :: front, back ++ [closing], by simp [← same]⟩⟩

theorem infix_append (shown : IsShownMark mark) (absent : '<' ∉ front) :
    mark <:+: front ++ back ↔ mark <:+: back :=
  ⟨shown.isInfix_of_append absent, fun found => found.trans (List.suffix_append front back).isInfix⟩

theorem infix_quoteChars (shown : IsShownMark mark) :
    mark <:+: quoteChars text ↔ mark <:+: text :=
  (shown.infix_enclosed (by simp)).trans shown.infix_flatMap_escapeChar

theorem notMem_newline (depth : Nat) : '<' ∉ newline depth := by
  simp [newline, List.mem_replicate]

theorem infix_append_newline (shown : IsShownMark mark) :
    mark <:+: front ++ newline depth ++ back ↔ mark <:+: front ∨ mark <:+: back := by
  rw [newline, List.append_assoc, List.cons_append, Text.infix_append_cons_iff shown.notMem_feed,
    shown.infix_append (by simp)]

theorem infix_separated (shown : IsShownMark mark) (items : List (List Char)) :
    mark <:+: separated (',' :: newline depth) items ↔ ∃ item ∈ items, mark <:+: item := by
  induction items with
  | nil => simpa [separated] using shown.not_isInfix List.not_mem_nil
  | cons item rest ih =>
      cases rest with
      | nil => simp [separated]
      | cons next others =>
          rw [separated_cons_cons, List.append_assoc, List.cons_append,
            Text.infix_append_cons_iff (shown.plain ',' (by simp)),
            shown.infix_append (notMem_newline depth), ih]
          simp only [List.exists_mem_cons_iff]

theorem infix_spread (shown : IsShownMark mark) {opening closing : Char}
    (delimits : ∀ c ∈ [opening, closing], c ∈ ['"', '\\', ',', ':', '[', ']', '\x7b', '\x7d'])
    (items : List (List Char)) :
    mark <:+: spread depth opening closing items ↔ ∃ item ∈ items, mark <:+: item := by
  have none : ¬ mark <:+: [] := shown.not_isInfix List.not_mem_nil
  cases items with
  | nil =>
      have empty : mark <:+: opening :: [] ++ [closing] ↔ mark <:+: [] :=
        shown.infix_enclosed delimits
      exact empty.trans (iff_of_false none (by simp))
  | cons item others =>
      rw [spread_cons, ← List.append_assoc, ← List.append_assoc, ← List.cons_append,
        shown.infix_enclosed delimits, ← List.append_nil (_ ++ newline depth),
        shown.infix_append_newline, or_iff_left none, shown.infix_append (notMem_newline _),
        shown.infix_separated]

theorem infix_scalar (shown : IsShownMark mark) {value : Json}
    (noText : ∀ text, value ≠ .text text) :
    mark <:+: scalarChars value ↔ ∃ text ∈ ([] : List String), mark <:+: text.toList :=
  iff_of_false (not_infix_scalar .plain shown.toIsMark noText) (by simp)

end IsShownMark

mutual

/-- The strings of a value are the only places of a mark in its text on lines. -/
theorem infix_prettyChars (shown : IsShownMark mark) : (value : Json) → (depth : Nat) →
    (mark <:+: prettyChars depth value ↔ ∃ text ∈ strings value, mark <:+: text.toList)
  | .null, _ => by
      rw [prettyChars, strings]
      exact shown.infix_scalar nofun
  | .boolean value, _ => by
      rw [prettyChars, strings]
      exact shown.infix_scalar nofun
  | .integer value, _ => by
      rw [prettyChars, strings]
      exact shown.infix_scalar nofun
  | .real value, _ => by
      rw [prettyChars, strings]
      exact shown.infix_scalar nofun
  | .text value, _ => by
      rw [prettyChars, scalarChars, shown.infix_quoteChars, strings]
      simp only [List.mem_singleton, exists_eq_left]
  | .array items, depth => by
      rw [prettyChars, strings, shown.infix_spread (by simp), infix_prettyItems shown items]
  | .object members, depth => by
      rw [prettyChars, strings, shown.infix_spread (by simp), infix_prettyMembers shown members]

theorem infix_prettyItems (shown : IsShownMark mark) : (items : List Json) → (depth : Nat) →
    ((∃ item ∈ prettyItems depth items, mark <:+: item) ↔
      ∃ text ∈ stringsOfItems items, mark <:+: text.toList)
  | [], _ => by simp [prettyItems, stringsOfItems]
  | item :: rest, depth => by
      rw [prettyItems, stringsOfItems, List.exists_mem_cons_iff, infix_prettyChars shown item,
        infix_prettyItems shown rest]
      simp only [List.mem_append, or_and_right, exists_or]

theorem infix_prettyMembers (shown : IsShownMark mark) : (members : List (String × Json)) →
    (depth : Nat) → ((∃ item ∈ prettyMembers depth members, mark <:+: item) ↔
      ∃ text ∈ stringsOfMembers members, mark <:+: text.toList)
  | [], _ => by simp [prettyMembers, stringsOfMembers]
  | member :: rest, depth => by
      rw [prettyMembers, stringsOfMembers, List.exists_mem_cons_iff, infix_prettyMember shown member,
        infix_prettyMembers shown rest]
      simp only [List.mem_append, or_and_right, exists_or]

theorem infix_prettyMember (shown : IsShownMark mark) : (member : String × Json) →
    (depth : Nat) → (mark <:+: prettyMember depth member ↔
      ∃ text ∈ stringsOfMember member, mark <:+: text.toList)
  | (name, value), depth => by
      rw [prettyMember, stringsOfMember, Text.infix_append_cons_iff (shown.plain ':' (by simp)),
        shown.infix_quoteChars, ← List.singleton_append, shown.infix_append (by simp),
        infix_prettyChars shown value, List.exists_mem_cons_iff]

end

end LinkedViews.Json.Grammar
