import LinkedViews.Proofs.Calendar.Timestamp

/-!
The lenient form as a sequence of trials. A layout lists the fields of a text and what parts them,
and a text is read by the first of five layouts that it follows to its end.
-/

namespace LinkedViews.Timestamp

inductive Item where
  | year
  | month
  | day
  | hour
  | minute
  | second
  | fraction
  | blank
  | letter (c : Char)

/-- What has been read of a text, and what is left of it. -/
structure Reading where
  date : Date
  clock : Clock
  rest : List Char

variable {reading : Reading} {items : List Item} {text rest : List Char} {date : Date}

/-- White space is passed over by the item for it, of which there may be none at all. -/
def Reading.read? (reading : Reading) : Item → Option Reading
  | .year => (year? reading.rest).map fun (year, rest) =>
      { reading with date := { reading.date with year }, rest }
  | .month => (shortField? reading.rest).map fun (month, rest) =>
      { reading with date := { reading.date with month }, rest }
  | .day => (shortField? reading.rest).map fun (day, rest) =>
      { reading with date := { reading.date with day }, rest }
  | .hour => (shortField? reading.rest).map fun (hour, rest) =>
      { reading with clock := { reading.clock with hour }, rest }
  | .minute => (shortField? reading.rest).map fun (minute, rest) =>
      { reading with clock := { reading.clock with minute }, rest }
  | .second => (shortField? reading.rest).map fun (second, rest) =>
      { reading with clock := { reading.clock with second }, rest }
  | .fraction => (fraction? reading.rest).map fun (millis, rest) =>
      { reading with clock := { reading.clock with millis }, rest }
  | .blank => some { reading with rest := Text.trimStart reading.rest }
  | .letter c => (expect? c reading.rest).map fun rest => { reading with rest }

/-- The point in time behind some items, with which the text has to be at its end. -/
def Reading.follow? (reading : Reading) (items : List Item) : Option Int :=
  (items.foldlM Reading.read? reading).bind fun reading =>
    if reading.rest = [] then ofDateTime? reading.date reading.clock else none

def readAs? (text : List Char) (layout : List Item) : Option Int :=
  Reading.follow? ⟨⟨0, 0, 0⟩, midnight, text⟩ layout

def dateItems : List Item := [.year, .letter '-', .month, .letter '-', .day]

def timeItems : List Item := [.hour, .letter ':', .minute, .letter ':', .second]

/-- The layouts in the order in which they are tried. -/
def layouts : List (List Item) :=
  [dateItems ++ .blank :: timeItems,
    dateItems ++ .letter 'T' :: timeItems,
    dateItems ++ .blank :: (timeItems ++ [.fraction]),
    dateItems ++ .letter 'T' :: (timeItems ++ [.fraction]),
    dateItems]

theorem follow?_cons (item : Item) :
    reading.follow? (item :: items) = (reading.read? item).bind (·.follow? items) := by
  cases read : reading.read? item <;> simp [Reading.follow?, read]

theorem readAs?_dateItems (text : List Char) (items : List Item) :
    readAs? text (dateItems ++ items) =
      (date? text).bind fun (date, rest) => Reading.follow? ⟨date, midnight, rest⟩ items := by
  have read : dateItems.foldlM Reading.read? ⟨⟨0, 0, 0⟩, midnight, text⟩ =
      (date? text).map fun (date, rest) => ⟨date, midnight, rest⟩ := by
    simp only [dateItems, List.foldlM_cons, List.foldlM_nil, Reading.read?, date?,
      Option.bind_eq_bind, Option.bind_map, Option.map_bind, Function.comp_def, Option.pure_def,
      Option.map_some]
  rw [readAs?, Reading.follow?, List.foldlM_append, read]
  cases date? text <;> rfl

theorem follow?_fraction (date : Date) (rest : List Char) :
    Reading.follow? ⟨date, midnight, rest⟩ (timeItems ++ [.fraction]) =
      (clock? shortField? rest).bind fun (clock, rest) =>
        if rest = [] then ofDateTime? date clock else none := by
  simp only [Reading.follow?, timeItems, List.cons_append, List.nil_append, List.foldlM_cons,
    List.foldlM_nil, Reading.read?, clock?, Option.bind_eq_bind, Option.bind_map, Option.bind_assoc,
    Function.comp_def, Option.pure_def, Option.bind_some]

theorem millis_timeItems {after : Reading}
    (read : timeItems.foldlM Reading.read? ⟨date, midnight, rest⟩ = some after) :
    after.clock.millis = 0 := by
  simp only [timeItems, List.foldlM_cons, List.foldlM_nil, Reading.read?, Option.bind_eq_bind,
    Option.bind_map, Function.comp_def, Option.pure_def, Option.bind_eq_some_iff,
    Option.some.injEq] at read
  obtain ⟨_, _, _, _, _, _, _, _, _, _, rfl⟩ := read
  rfl

/-- A text that ends with the seconds also follows the layout with a fraction, which then counts
as none: the trial without one finds nothing else. -/
theorem follow?_timeItems_or (date : Date) (rest : List Char) :
    (Reading.follow? ⟨date, midnight, rest⟩ timeItems).or
        (Reading.follow? ⟨date, midnight, rest⟩ (timeItems ++ [.fraction])) =
      Reading.follow? ⟨date, midnight, rest⟩ (timeItems ++ [.fraction]) := by
  simp only [Reading.follow?, List.foldlM_append]
  cases read : timeItems.foldlM Reading.read? ⟨date, midnight, rest⟩ with
  | none => rfl
  | some after =>
      have none := millis_timeItems read
      obtain ⟨date, ⟨hour, minute, second, millis⟩, rest⟩ := after
      subst none
      by_cases ended : rest = []
      · subst ended
        simp [Reading.read?, fraction?]
      · simp [ended]

theorem follow?_eq_none (date : Date) (unread : shortField? rest = none) (items : List Item) :
    Reading.follow? ⟨date, midnight, rest⟩ (timeItems ++ items) = none := by
  rw [timeItems, List.cons_append, follow?_cons, Reading.read?, unread]
  rfl

theorem shortField?_trimStart (rest : List Char) :
    shortField? (Text.trimStart rest) = shortField? rest := by
  rw [shortField?, Text.trimStart, Text.trimStart, List.dropWhile_idempotent]
  rfl

theorem follow?_trimStart (date : Date) (rest : List Char) :
    Reading.follow? ⟨date, midnight, Text.trimStart rest⟩ (timeItems ++ [.fraction]) =
      Reading.follow? ⟨date, midnight, rest⟩ (timeItems ++ [.fraction]) := by
  simp only [follow?_fraction, clock?, shortField?_trimStart]

theorem findSome?_cons_or {α β : Type} (read : α → Option β) (first : α) (others : List α) :
    (first :: others).findSome? read = (read first).or (others.findSome? read) := by
  rw [List.findSome?_cons]
  cases read first <;> rfl

/-- A text of the lenient form names what it names by the first layout that it follows. -/
theorem readLenient?_eq_findSome? (text : List Char) :
    readLenient? text = layouts.findSome? (readAs? text) := by
  have alone := readAs?_dateItems text []
  rw [List.append_nil] at alone
  simp only [layouts, findSome?_cons_or, List.findSome?_nil, Option.or_none, alone,
    readAs?_dateItems, readLenient?]
  cases date? text with
  | none => rfl
  | some found =>
      obtain ⟨date, rest⟩ := found
      simp only [Option.bind_some, follow?_cons, Reading.read?, Option.bind_eq_bind]
      rcases rest with _ | ⟨mark, more⟩
      · rfl
      · have going : Reading.follow? ⟨date, midnight, mark :: more⟩ [] = none := rfl
        by_cases letter : mark = 'T'
        · subst letter
          have unread : shortField? ('T' :: more) = none := rfl
          have kept : Text.trimStart ('T' :: more) = 'T' :: more := rfl
          have early := follow?_eq_none date unread []
          have late := follow?_eq_none date unread [.fraction]
          rw [List.append_nil] at early
          rw [kept, early, late, going]
          simp only [expect?, if_true, Option.map_some, Option.bind_some, Option.none_or,
            Option.or_none, follow?_timeItems_or, reduceCtorEq, if_false]
          exact (follow?_fraction date more).symm
        · have other : expect? 'T' (mark :: more) = none := if_neg letter
          rw [other, going]
          simp only [Option.map_none, Option.bind_none, Option.none_or, Option.or_none,
            follow?_timeItems_or]
          rw [follow?_trimStart, follow?_fraction]
          simp [letter]

end LinkedViews.Timestamp
