/-!
Filling a template: the nearest mark in what is left of the template is looked up, the text before
it is put out, its value takes its place, and the search goes on behind it. Values are put out
without being searched, so nothing in a value is ever taken for a mark.
-/

namespace LinkedViews.Page.Template

/-- A mark in a template and the text that takes its place. An empty mark would stand at the front
of every rest, and the search would never leave it behind. -/
structure Slot where
  mark : String
  value : String
  mark_ne_empty : mark ≠ ""

/-- Where a mark first begins in a text. -/
def position? (mark : List Char) : List Char → Option Nat
  | [] => if mark = [] then some 0 else none
  | c :: rest =>
    if mark.isPrefixOf (c :: rest) then some 0 else (position? mark rest).map (· + 1)

structure Occurrence where
  position : Nat
  slot : Slot

namespace Occurrence

def front (occurrence : Occurrence) (text : List Char) : List Char :=
  text.take occurrence.position

def behind (occurrence : Occurrence) (text : List Char) : List Char :=
  text.drop (occurrence.position + occurrence.slot.mark.toList.length)

end Occurrence

/-- The first occurrence of each mark that a text holds, in the order of the list. -/
def occurrences (slots : List Slot) (text : List Char) : List Occurrence :=
  slots.filterMap fun slot => (position? slot.mark.toList text).map fun n => ⟨n, slot⟩

/-- Where several marks begin at one place, the first listed one is meant. -/
def nearest? (slots : List Slot) (text : List Char) : Option Occurrence :=
  (occurrences slots text).minOn? Occurrence.position

theorem length_of_position? {mark text : List Char} {n : Nat}
    (found : position? mark text = some n) : n + mark.length ≤ text.length := by
  induction text generalizing n with
  | nil =>
      rw [position?] at found
      split at found
      · rename_i empty
        rw [← Option.some.inj found, empty]
        exact Nat.le_refl _
      · contradiction
  | cons c rest ih =>
      rw [position?] at found
      split at found
      · rename_i begins
        rw [← Option.some.inj found, Nat.zero_add]
        exact (List.isPrefixOf_iff_prefix.mp begins).length_le
      · obtain ⟨m, later, rfl⟩ := Option.map_eq_some_iff.mp found
        have least := ih later
        rw [List.length_cons]
        omega

/-- The text behind an occurrence is shorter, since no mark is empty. -/
theorem length_behind_lt {slots : List Slot} {text : List Char} {next : Occurrence}
    (found : nearest? slots text = some next) : (next.behind text).length < text.length := by
  obtain ⟨slot, _, own⟩ := List.mem_filterMap.mp (List.minOn?_mem found)
  obtain ⟨n, first, rfl⟩ := Option.map_eq_some_iff.mp own
  have within := length_of_position? first
  have positive : slot.mark.toList.length ≠ 0 := by
    intro none
    exact slot.mark_ne_empty (String.toList_eq_nil_iff.mp (List.length_eq_zero_iff.mp none))
  rw [Occurrence.behind, List.length_drop]
  dsimp only
  omega

def fillFrom (slots : List Slot) (text : List Char) : List Char :=
  match _ : nearest? slots text with
  | none => text
  | some next => next.front text ++ next.slot.value.toList ++ fillFrom slots (next.behind text)
termination_by text.length
decreasing_by exact length_behind_lt ‹_›

def fill (template : String) (slots : List Slot) : String :=
  String.ofList (fillFrom slots template.toList)

end LinkedViews.Page.Template
