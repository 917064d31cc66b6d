import LinkedViews.Page.Template
import LinkedViews.Proofs.Text.ClosingTag

/-!
A template is read in one way only: from the left, with the first listed mark wherever one begins,
and a character that stays everywhere else. Filling is the substitution of the values in this
reading, all at once: the reading depends on the marks alone, and no value is read.
-/

namespace LinkedViews.Page.Template

/-! ## Readings -/

/-- A piece of a template: a character that stays, or a mark by its place in the list. -/
inductive Part where
  | kept (c : Char)
  | mark (index : Nat)
deriving DecidableEq, Repr

/-- A piece written out, with a text for each mark. -/
def Part.text (texts : List (List Char)) : Part → List Char
  | kept c => [c]
  | mark index => texts[index]?.getD []

/-- Pieces written out one behind the other: with the marks as texts this is the template itself,
with the values it is what the template is filled to. -/
def spell (texts : List (List Char)) (parts : List Part) : List Char :=
  parts.flatMap (Part.text texts)

/-- Whether a piece is what stands at the front of a text: the first listed mark that begins there,
or a character where none begins. -/
def Part.Leads (marks : List (List Char)) (text : List Char) : Part → Prop
  | kept _ => ∀ mark ∈ marks, ¬ mark <+: text
  | mark index =>
    (∃ mark ∈ marks[index]?, mark <+: text) ∧ ∀ earlier ∈ marks.take index, ¬ earlier <+: text

def IsLeftmost (marks : List (List Char)) : List Part → Prop
  | [] => True
  | part :: rest => part.Leads marks (spell marks (part :: rest)) ∧ IsLeftmost marks rest

structure IsReading (marks : List (List Char)) (text : List Char) (parts : List Part) : Prop where
  spelled : spell marks parts = text
  leftmost : IsLeftmost marks parts

variable {marks texts : List (List Char)} {text rest : List Char} {part other : Part}
  {parts others : List Part} {c : Char}

@[simp] theorem spell_nil : spell texts [] = [] := rfl

@[simp] theorem spell_cons : spell texts (part :: parts) = part.text texts ++ spell texts parts :=
  List.flatMap_cons

@[simp] theorem spell_append : spell texts (parts ++ others) = spell texts parts ++ spell texts others :=
  List.flatMap_append

theorem Part.text_ne_nil (solid : [] ∉ marks) (leads : part.Leads marks text) :
    part.text marks ≠ [] := by
  cases part with
  | kept c => exact List.cons_ne_nil c []
  | mark index =>
      obtain ⟨⟨mark, listed, _⟩, _⟩ := leads
      rw [Part.text, listed, Option.getD_some]
      rintro rfl
      exact solid (List.mem_of_getElem? listed)

/-- Of two pieces of one kind that stand at the front of a text neither can be another one. -/
theorem Part.Leads.unique (leads : part.Leads marks text) (second : other.Leads marks text)
    (one : part.text marks <+: text) (two : other.text marks <+: text) : part = other := by
  cases part with
  | kept c =>
      cases other with
      | kept d =>
          obtain ⟨rest, rfl⟩ := one
          rw [(List.cons_prefix_cons.mp two).1]
      | mark index =>
          obtain ⟨⟨mark, listed, begins⟩, _⟩ := second
          exact absurd begins (leads mark (List.mem_of_getElem? listed))
  | mark index =>
      obtain ⟨⟨mark, listed, begins⟩, first⟩ := leads
      cases other with
      | kept d => exact absurd begins (second mark (List.mem_of_getElem? listed))
      | mark place =>
          obtain ⟨⟨rival, named, starts⟩, before⟩ := second
          have among {i j : Nat} {mark : List Char} (low : i < j) (listed : marks[i]? = some mark) :
              mark ∈ marks.take j :=
            List.mem_of_getElem? (by rw [List.getElem?_take_of_lt low, listed])
          obtain less | same | greater := Nat.lt_trichotomy index place
          · exact absurd begins (before mark (among less listed))
          · rw [same]
          · exact absurd starts (first rival (among greater named))

theorem IsLeftmost.unique (solid : [] ∉ marks) (leftmost : IsLeftmost marks parts)
    (second : IsLeftmost marks others) (same : spell marks parts = spell marks others) :
    parts = others := by
  induction parts generalizing others with
  | nil =>
      cases others with
      | nil => rfl
      | cons other more =>
          have nonempty := Part.text_ne_nil solid second.1
          simp [nonempty] at same
  | cons part rest ih =>
      cases others with
      | nil =>
          have nonempty := Part.text_ne_nil solid leftmost.1
          simp [nonempty] at same
      | cons other more =>
          have leads := second.1
          rw [← same] at leads
          have front : other.text marks <+: spell marks (part :: rest) := by
            rw [same, spell_cons]
            exact List.prefix_append _ _
          obtain rfl := leftmost.1.unique leads (List.prefix_append _ _) front
          rw [spell_cons, spell_cons] at same
          rw [ih leftmost.2 second.2 (List.append_cancel_left same)]

theorem exists_leads (marks : List (List Char)) (c : Char) (rest : List Char) :
    ∃ part : Part, part.Leads marks (c :: rest) ∧ part.text marks <+: c :: rest := by
  cases found : marks.find? fun mark => mark.isPrefixOf (c :: rest) with
  | none =>
      refine ⟨.kept c, fun mark listed begins => ?_, rest, rfl⟩
      exact List.find?_eq_none.mp found mark listed (List.isPrefixOf_iff_prefix.mpr begins)
  | some mark =>
      obtain ⟨begins, before, behind, rfl, first⟩ := List.find?_eq_some_iff_append.mp found
      rw [List.isPrefixOf_iff_prefix] at begins
      have listed : (before ++ mark :: behind)[before.length]? = some mark := by simp
      refine ⟨.mark before.length, ⟨⟨mark, listed, begins⟩, fun earlier member starts => ?_⟩, ?_⟩
      · rw [List.take_left] at member
        have other := first earlier member
        rw [List.isPrefixOf_iff_prefix.mpr starts] at other
        contradiction
      · rw [Part.text, listed]
        exact begins

theorem exists_isReading (solid : [] ∉ marks) (text : List Char) :
    ∃ parts, IsReading marks text parts := by
  induction size : text.length using Nat.strong_induction_on generalizing text with
  | _ n ih =>
      subst size
      cases text with
      | nil => exact ⟨[], rfl, trivial⟩
      | cons c rest =>
          obtain ⟨part, leads, behind, shape⟩ := exists_leads marks c rest
          have shorter : behind.length < (c :: rest).length := by
            have least := List.length_pos_iff.mpr (Part.text_ne_nil solid leads)
            rw [← shape, List.length_append]
            omega
          obtain ⟨parts, spelled, leftmost⟩ := ih behind.length shorter behind rfl
          have whole : spell marks (part :: parts) = c :: rest := by rw [spell_cons, spelled, shape]
          exact ⟨part :: parts, whole, by rwa [whole], leftmost⟩

/-! ## Templates written out -/

/-- The characters of a text that stays. -/
def kept (text : String) : List Part := text.toList.map Part.kept

theorem spell_map_kept (text : List Char) : spell texts (text.map Part.kept) = text := by
  rw [spell, List.flatMap_map]
  exact List.flatMap_singleton' _

/-- A template given by its texts, a mark behind each of them, and what follows the last mark. -/
def layOut (pieces : List (String × Nat)) (ending : String) : List Part :=
  match pieces with
  | [] => kept ending
  | (text, index) :: rest => kept text ++ .mark index :: layOut rest ending

/-- The text of such a template with a text for each mark. -/
def writeOut (texts : List String) (pieces : List (String × Nat)) (ending : String) : String :=
  match pieces with
  | [] => ending
  | (text, index) :: rest => text ++ texts[index]?.getD "" ++ writeOut texts rest ending

theorem toList_writeOut (texts : List String) (pieces : List (String × Nat)) (ending : String) :
    (writeOut texts pieces ending).toList =
      spell (texts.map String.toList) (layOut pieces ending) := by
  induction pieces with
  | nil => exact (spell_map_kept ending.toList).symm
  | cons piece rest ih =>
      have mark : (texts.map String.toList)[piece.2]?.getD [] = (texts[piece.2]?.getD "").toList := by
        rw [List.getElem?_map]
        cases texts[piece.2]? <;> simp
      rw [layOut, spell_append, kept, spell_map_kept, spell_cons, ← ih, Part.text, mark, writeOut,
        String.toList_append, String.toList_append, List.append_assoc]

/-- Whether none of some texts begins within a text, whatever comes behind it. -/
def isFree (openings : List (List Char)) : List Char → Bool
  | [] => true
  | c :: rest => openings.all (Text.differ (c :: rest)) && isFree openings rest

def IsFree (openings : List (List Char)) (text : String) : Prop :=
  isFree openings text.toList = true

theorem IsFree.ofList {openings : List (List Char)} {chars : List Char}
    (free : isFree openings chars = true) : IsFree openings (String.ofList chars) := by
  rwa [IsFree, String.toList_ofList]

theorem isFree_append {openings : List (List Char)} {front back : List Char}
    (first : isFree openings front = true) (second : isFree openings back = true) :
    isFree openings (front ++ back) = true := by
  induction front with
  | nil => exact second
  | cons c rest ih =>
      simp only [isFree, Bool.and_eq_true, List.all_eq_true] at first
      simp only [List.cons_append, isFree, Bool.and_eq_true, List.all_eq_true]
      exact ⟨fun opening listed => Text.differ_append (first.1 opening listed), ih first.2⟩

theorem IsFree.append {openings : List (List Char)} {front back : String}
    (first : IsFree openings front) (second : IsFree openings back) :
    IsFree openings (front ++ back) := by
  rw [IsFree, String.toList_append]
  exact isFree_append first second

theorem IsFree.not_infix {openings : List (List Char)} {text : String} {opening : List Char}
    (free : IsFree openings text) (listed : opening ∈ openings) (solid : opening ≠ []) :
    ¬ opening <:+: text.toList := by
  rw [IsFree] at free
  generalize text.toList = chars at free ⊢
  induction chars with
  | nil => exact fun found => solid (List.infix_nil.mp found)
  | cons c rest ih =>
      simp only [isFree, Bool.and_eq_true, List.all_eq_true] at free
      rw [List.infix_cons_iff]
      rintro (begins | later)
      · exact Text.not_prefix_of_differ (free.1 opening listed) begins
      · exact ih free.2 later

theorem IsLeftmost.kept {openings : List (List Char)} {text : String}
    (opens : ∀ mark ∈ marks, ∃ opening ∈ openings, opening <+: mark)
    (free : IsFree openings text) (leftmost : IsLeftmost marks parts) :
    IsLeftmost marks (kept text ++ parts) := by
  rw [IsFree] at free
  rw [Template.kept]
  generalize text.toList = chars at free ⊢
  induction chars with
  | nil => exact leftmost
  | cons c rest ih =>
      simp only [isFree, Bool.and_eq_true, List.all_eq_true] at free
      refine ⟨fun mark listed begins => ?_, ih free.2⟩
      obtain ⟨opening, among, opens⟩ := opens mark listed
      have own : spell marks ((c :: rest).map Part.kept ++ parts) =
          c :: rest ++ spell marks parts := by rw [spell_append, spell_map_kept]
      change mark <+: spell marks ((c :: rest).map Part.kept ++ parts) at begins
      rw [own] at begins
      exact Text.not_prefix_of_differ (Text.differ_append (free.1 opening among))
        (opens.trans begins)

/-- Marks of which none begins another one can stand in any order. -/
theorem IsLeftmost.mark {index : Nat} (listed : index < marks.length)
    (apart : marks.Pairwise fun earlier mark => Text.differ mark earlier = true)
    (leftmost : IsLeftmost marks parts) : IsLeftmost marks (.mark index :: parts) := by
  have own : spell marks (.mark index :: parts) = marks[index] ++ spell marks parts := by
    rw [spell_cons, Part.text, List.getElem?_eq_getElem listed, Option.getD_some]
  refine ⟨⟨⟨marks[index], List.getElem?_eq_getElem listed, ?_⟩, fun earlier member begins => ?_⟩,
    leftmost⟩
  · rw [own]
    exact List.prefix_append _ _
  · obtain ⟨place, low, rfl⟩ := List.mem_take_iff_getElem.mp member
    have differs := List.pairwise_iff_getElem.mp apart place index (by omega) listed (by omega)
    rw [own] at begins
    exact Text.not_prefix_of_differ (Text.differ_append differs) begins

theorem isLeftmost_layOut {openings : List (List Char)} {pieces : List (String × Nat)}
    {ending : String} (opens : ∀ mark ∈ marks, ∃ opening ∈ openings, opening <+: mark)
    (apart : marks.Pairwise fun earlier mark => Text.differ mark earlier = true)
    (each : pieces.Forall fun (text, index) => IsFree openings text ∧ index < marks.length)
    (last : IsFree openings ending) : IsLeftmost marks (layOut pieces ending) := by
  induction pieces with
  | nil =>
      rw [layOut, ← List.append_nil (kept ending)]
      exact .kept opens last trivial
  | cons piece rest ih =>
      obtain ⟨⟨free, listed⟩, others⟩ := (List.forall_cons _ piece rest).mp each
      exact .kept opens free (.mark listed apart (ih others))

/-! ## The search -/

section Search

variable {slots : List Slot} {slot : Slot} {next : Occurrence} {front behind : List Occurrence}

def marksOf (slots : List Slot) : List (List Char) := slots.map fun slot => slot.mark.toList

def valuesOf (slots : List Slot) : List (List Char) := slots.map fun slot => slot.value.toList

theorem nil_notMem_marksOf (slots : List Slot) : [] ∉ marksOf slots := by
  intro member
  obtain ⟨slot, _, empty⟩ := List.mem_map.mp member
  exact slot.mark_ne_empty (String.toList_eq_nil_iff.mp empty)

theorem position?_of_prefix {mark : List Char} (begins : mark <+: text) :
    position? mark text = some 0 := by
  cases text with
  | nil => rw [position?, if_pos (List.prefix_nil.mp begins)]
  | cons c rest => rw [position?, if_pos (List.isPrefixOf_iff_prefix.mpr begins)]

theorem position?_cons {mark : List Char} (other : ¬ mark <+: c :: rest) :
    position? mark (c :: rest) = (position? mark rest).map (· + 1) := by
  rw [position?, if_neg]
  rwa [List.isPrefixOf_iff_prefix]

theorem position?_ne_zero {mark : List Char} (other : ¬ mark <+: text) :
    position? mark text ≠ some 0 := by
  cases text with
  | nil =>
      rw [List.prefix_nil] at other
      simp [position?, other]
  | cons c rest =>
      rw [position?_cons other]
      simp

/-- The same occurrence seen from one character before. -/
def Occurrence.later (occurrence : Occurrence) : Occurrence :=
  ⟨occurrence.position + 1, occurrence.slot⟩

theorem occurrences_cons (none : ∀ slot ∈ slots, ¬ slot.mark.toList <+: c :: rest) :
    occurrences slots (c :: rest) = (occurrences slots rest).map Occurrence.later := by
  rw [occurrences, occurrences, List.map_filterMap]
  refine List.filterMap_congr fun slot member => ?_
  rw [position?_cons (none slot member), Option.map_map, Option.map_map]
  rfl

theorem minOn?_later (found : List Occurrence) :
    (found.map Occurrence.later).minOn? Occurrence.position =
      (found.minOn? Occurrence.position).map Occurrence.later := by
  induction found with
  | nil => rfl
  | cons one more ih =>
      rw [List.map_cons, List.minOn?_cons, ih, List.minOn?_cons, Option.map_some]
      cases more.minOn? Occurrence.position with
      | none => rfl
      | some nearest =>
          have shifted : one.later.position ≤ nearest.later.position ↔
              one.position ≤ nearest.position := Nat.add_le_add_iff_right
          simp only [Option.map_some, Option.elim_some, minOn, shifted]
          split <;> rfl

/-- Where no mark begins, the search finds what it finds from the next character on. -/
theorem nearest?_cons (none : ∀ slot ∈ slots, ¬ slot.mark.toList <+: c :: rest) :
    nearest? slots (c :: rest) = (nearest? slots rest).map Occurrence.later := by
  rw [nearest?, occurrences_cons none, minOn?_later]
  rfl

theorem minOn?_of_zero (here : next.position = 0) (away : ∀ one ∈ front, one.position ≠ 0) :
    (front ++ next :: behind).minOn? Occurrence.position = some next := by
  have own : (next :: behind).minOn? Occurrence.position = some next := by
    rw [List.minOn?_cons]
    cases behind.minOn? Occurrence.position with
    | none => rfl
    | some nearest => rw [Option.elim_some, minOn_eq_left (by omega)]
  rw [List.minOn?_append, own]
  cases found : front.minOn? Occurrence.position with
  | none => rfl
  | some one =>
      have apart := away one (List.minOn?_mem found)
      rw [Option.merge_some_some, minOn_eq_right_of_lt (by omega)]

/-- Of the marks that begin a text the search takes the first listed one. -/
theorem nearest?_append {before : List Slot} (after : List Slot)
    (begins : slot.mark.toList <+: text)
    (first : ∀ earlier ∈ before, ¬ earlier.mark.toList <+: text) :
    nearest? (before ++ slot :: after) text = some ⟨0, slot⟩ := by
  rw [nearest?, occurrences, List.filterMap_append, List.filterMap_cons,
    position?_of_prefix begins]
  refine minOn?_of_zero rfl fun one member => ?_
  obtain ⟨earlier, among, own⟩ := List.mem_filterMap.mp member
  obtain ⟨n, found, rfl⟩ := Option.map_eq_some_iff.mp own
  rintro rfl
  exact position?_ne_zero (first earlier among) found

theorem fillFrom_of_none (found : nearest? slots text = none) : fillFrom slots text = text := by
  rw [fillFrom]
  split
  · rfl
  · rename_i next here
    rw [found] at here
    contradiction

theorem fillFrom_of_some (found : nearest? slots text = some next) :
    fillFrom slots text =
      next.front text ++ next.slot.value.toList ++ fillFrom slots (next.behind text) := by
  rw [fillFrom]
  split
  · rename_i here
    rw [found] at here
    contradiction
  · rename_i other here
    rw [found] at here
    rw [Option.some.inj here]

theorem fillFrom_nil : fillFrom slots [] = [] := by
  apply fillFrom_of_none
  have none : occurrences slots [] = [] := by
    refine List.filterMap_eq_nil_iff.mpr fun slot member => ?_
    rw [position?, if_neg, Option.map_none]
    exact fun empty => slot.mark_ne_empty (String.toList_eq_nil_iff.mp empty)
  rw [nearest?, none]
  rfl

/-- A character where no mark begins is put out, and the search goes on behind it. -/
theorem fillFrom_cons (none : ∀ slot ∈ slots, ¬ slot.mark.toList <+: c :: rest) :
    fillFrom slots (c :: rest) = c :: fillFrom slots rest := by
  have moved := nearest?_cons none
  cases found : nearest? slots rest with
  | none =>
      rw [found] at moved
      rw [fillFrom_of_none moved, fillFrom_of_none found]
  | some next =>
      rw [found] at moved
      have behind : next.later.behind (c :: rest) = next.behind rest := by
        rw [Occurrence.behind, Occurrence.behind, Occurrence.later, Nat.add_right_comm,
          List.drop_succ_cons]
      rw [fillFrom_of_some moved, fillFrom_of_some found, behind]
      rfl

/-- Where a mark begins, the value of the first listed one is put out in its place. -/
theorem fillFrom_mark {index : Nat} (listed : slots[index]? = some slot)
    (first : ∀ earlier ∈ slots.take index, ¬ earlier.mark.toList <+: slot.mark.toList ++ rest) :
    fillFrom slots (slot.mark.toList ++ rest) = slot.value.toList ++ fillFrom slots rest := by
  have shape : slots.take index ++ slot :: slots.drop (index + 1) = slots := by
    have behind : slots.drop index = slot :: slots.drop (index + 1) := by
      rw [List.drop_eq_getElem?_toList_append, listed]
      rfl
    rw [← behind, List.take_append_drop]
  have found := nearest?_append (slots.drop (index + 1)) (List.prefix_append _ rest) first
  rw [shape] at found
  have behind : Occurrence.behind ⟨0, slot⟩ (slot.mark.toList ++ rest) = rest := by
    rw [Occurrence.behind, Nat.zero_add, List.drop_left]
  rw [fillFrom_of_some found, behind]
  rfl

/-- What the search puts out is the reading of the template with the values for the marks. -/
theorem fillFrom_spell (leftmost : IsLeftmost (marksOf slots) parts) :
    fillFrom slots (spell (marksOf slots) parts) = spell (valuesOf slots) parts := by
  induction parts with
  | nil => exact fillFrom_nil
  | cons part rest ih =>
      obtain ⟨leads, others⟩ := leftmost
      rw [spell_cons] at leads
      rw [spell_cons, spell_cons, ← ih others]
      cases part with
      | kept c =>
          refine fillFrom_cons fun slot member => ?_
          exact leads slot.mark.toList (List.mem_map_of_mem member)
      | mark index =>
          obtain ⟨⟨mark, listed, _⟩, first⟩ := leads
          rw [Option.mem_def, marksOf, List.getElem?_map, Option.map_eq_some_iff] at listed
          obtain ⟨slot, listed, rfl⟩ := listed
          have marked : (Part.mark index).text (marksOf slots) = slot.mark.toList := by
            simp [Part.text, marksOf, listed]
          have valued : (Part.mark index).text (valuesOf slots) = slot.value.toList := by
            simp [Part.text, valuesOf, listed]
          rw [marked] at first ⊢
          rw [valued]
          refine fillFrom_mark listed fun earlier member => first _ ?_
          rw [marksOf, ← List.map_take]
          exact List.mem_map_of_mem member

end Search

end LinkedViews.Page.Template
