import LinkedViews.Preview.Key
import LinkedViews.Proofs.Number.Plain
import LinkedViews.Proofs.Text.ClosingTag

/-!
The texts of keys. A text tells by its first character which kind of key it shows, and where the key
ends it is followed by a comma, a bracket, a space or nothing. So a key can be read off the front of
a text, and the items of a tuple one after the other.
-/

namespace LinkedViews.Key

variable {c : Char} {a b : Key} {front back : List Char}

mutual

/-- Whether a number in a key, at any depth, is no number. -/
def holdsNaN : Key → Bool
  | boolean _ => false
  | number value => value.isNaN
  | text _ => false
  | tuple items => holdsNaNItems items

def holdsNaNItems : List Key → Bool
  | [] => false
  | item :: rest => holdsNaN item || holdsNaNItems rest

end

/-! ## Characters -/

/-- The rank of the kind of key whose text begins with a character. -/
def rankOfFirst? (c : Char) : Option Nat :=
  if c = 't' ∨ c = 'f' then some 0
  else if c.isDigit = true ∨ c ∈ ['-', 'i', 'N'] then some 1
  else if c = '"' then some 2
  else if c = '[' then some 3
  else none

theorem rankOfFirst?_number (first : c.isDigit = true ∨ c ∈ ['-', 'i', 'N']) :
    rankOfFirst? c = some 1 := by
  have other : ¬ (c = 't' ∨ c = 'f') := by
    rintro (rfl | rfl)
    · simp at first
    · simp at first
  rw [rankOfFirst?, if_neg other, if_pos first]

theorem head_display (key : Key) :
    ∃ c rest, key.display.toList = c :: rest ∧ rankOfFirst? c = some key.kindRank := by
  cases key with
  | boolean value =>
      cases value with
      | false => exact ⟨'f', ['a', 'l', 's', 'e'], by rw [display]; rfl, rfl⟩
      | true => exact ⟨'t', ['r', 'u', 'e'], by rw [display]; rfl, rfl⟩
  | number value =>
      obtain ⟨c, rest, shape, first⟩ := Numeral.head_plain value
      exact ⟨c, rest, by rw [display, shape], rankOfFirst?_number first⟩
  | text value =>
      exact ⟨'"', Text.Quoted.encode value.toList ++ ['"'],
        by simp [display, Text.Quoted.render], rfl⟩
  | tuple items =>
      exact ⟨'[', (String.intercalate ", " (displayItems items)).toList ++ [']'],
        by simp [display], rfl⟩

theorem kindRank_eq (same : a.display.toList ++ front = b.display.toList ++ back) :
    a.kindRank = b.kindRank := by
  obtain ⟨c, rest, shape, own⟩ := head_display a
  obtain ⟨d, more, shape', other⟩ := head_display b
  rw [shape, shape'] at same
  rw [(List.cons.inj same).1, other] at own
  exact (Option.some.inj own).symm

theorem isPrintable_of_isPlainPart (part : Numeral.isPlainPart c = true) :
    Text.isPrintable c = true := by
  simp only [Numeral.isPlainPart, Bool.or_eq_true, decide_eq_true_eq] at part
  obtain digit | other := part
  · simp only [Char.isDigit, Bool.and_eq_true, decide_eq_true_eq, UInt32.le_iff_toNat_le] at digit
    have bounds : '0'.val.toNat = 48 ∧ '9'.val.toNat = 57 := by decide
    have code : c.toNat = c.val.toNat := rfl
    have ascii : c.toNat < 0x7F := by omega
    rw [Text.isPrintable, if_pos ascii]
    exact decide_eq_true (by omega)
  · simp only [List.mem_cons, List.not_mem_nil, or_false] at other
    obtain rfl | rfl | rfl | rfl | rfl | rfl | rfl := other <;> decide

mutual

/-- A text of a key is printable throughout; it has no line ending. -/
theorem isPrintable_of_mem_display : (key : Key) → ∀ c ∈ key.display.toList,
    Text.isPrintable c = true
  | boolean value => by
      rw [display]
      cases value <;> exact List.all_eq_true.mp (by decide)
  | number value => by
      intro c member
      rw [display] at member
      exact isPrintable_of_isPlainPart (Numeral.isPlainPart_of_mem_plain member)
  | text value => by
      intro c member
      rw [display] at member
      exact Text.Quoted.isPrintable_of_mem_render member
  | tuple items => by
      have between : ∀ c ∈ ", ".toList, Text.isPrintable c = true :=
        List.all_eq_true.mp (by decide)
      have inside := (Text.forall_mem_intercalate between _).mpr (isPrintable_of_mem_items items)
      have brackets : Text.isPrintable '[' = true ∧ Text.isPrintable ']' = true := by decide
      rw [display, String.toList_append, String.toList_append, String.toList_intercalate]
      simp only [List.forall_mem_append]
      exact ⟨⟨List.forall_mem_singleton.mpr brackets.1, inside⟩,
        List.forall_mem_singleton.mpr brackets.2⟩

theorem isPrintable_of_mem_items : (items : List Key) →
    ∀ part ∈ (displayItems items).map String.toList, ∀ c ∈ part, Text.isPrintable c = true
  | [] => by
      rw [displayItems]
      exact List.forall_mem_nil _
  | item :: rest => by
      rw [displayItems, List.map_cons, List.forall_mem_cons]
      exact ⟨isPrintable_of_mem_display item, isPrintable_of_mem_items rest⟩

end

/-! ## Ends -/

def isStop (c : Char) : Bool := c = ',' || c = ']' || c = ' '

/-- Whether a text is one that may stand behind a key. -/
def Stops (rest : List Char) : Prop := ∀ c ∈ rest.head?, isStop c = true

theorem isPlainPart_of_isStop (stop : isStop c = true) : Numeral.isPlainPart c = false := by
  simp only [isStop, Bool.or_eq_true, decide_eq_true_eq] at stop
  obtain (rfl | rfl) | rfl := stop <;> decide

theorem Stops.notPart (stops : Stops front) : ∀ c ∈ front.head?, Numeral.isPlainPart c = false :=
  fun c member => isPlainPart_of_isStop (stops c member)

theorem stops_nil : Stops [] := nofun

theorem stops_cons (stop : isStop c = true) (rest : List Char) : Stops (c :: rest) := by
  intro d member
  rwa [← Option.some.inj member]

/-! ## Reading -/

/-- The items of a tuple, each behind a comma and a space. -/
def listed (items : List Key) : List Char :=
  items.flatMap fun item => ',' :: ' ' :: item.display.toList

theorem listed_cons (item : Key) (others : List Key) (rest : List Char) :
    listed (item :: others) ++ rest =
      ',' :: ' ' :: (item.display.toList ++ (listed others ++ rest)) := by
  simp [listed]

theorem stops_listed (items : List Key) (rest : List Char) :
    Stops (listed items ++ ']' :: rest) := by
  cases items with
  | nil => exact stops_cons rfl rest
  | cons item others => exact stops_cons rfl _

theorem intercalate_displayItems (item : Key) (rest : List Key) :
    (String.intercalate ", " (displayItems (item :: rest))).toList =
      item.display.toList ++ listed rest := by
  induction rest generalizing item with
  | nil => simp [displayItems, listed]
  | cons next others ih =>
      have later := ih next
      rw [String.toList_intercalate, displayItems, List.map_cons] at later ⊢
      rw [displayItems, List.map_cons, List.intercalate_cons_cons, later, listed, listed,
        List.flatMap_cons, List.append_assoc]
      rfl

theorem display_tuple_nil (rest : List Char) :
    (tuple []).display.toList ++ rest = '[' :: ']' :: rest := by
  rw [display, displayItems]
  rfl

theorem display_tuple_cons (item : Key) (others : List Key) (rest : List Char) :
    (tuple (item :: others)).display.toList ++ rest =
      '[' :: (item.display.toList ++ (listed others ++ ']' :: rest)) := by
  rw [display, String.toList_append, String.toList_append, intercalate_displayItems]
  simp

theorem display_ne_bracket (key : Key) (rest : List Char) :
    key.display.toList ++ front ≠ ']' :: rest := by
  obtain ⟨c, more, shape, own⟩ := head_display key
  rw [shape]
  intro same
  rw [(List.cons.inj same).1] at own
  contradiction

/-- What stands between the brackets of tuples with the same text is the same. -/
theorem listed_eq {as bs : List Key}
    (same : (tuple as).display.toList ++ front = (tuple bs).display.toList ++ back) :
    listed as ++ ']' :: front = listed bs ++ ']' :: back := by
  cases as with
  | nil =>
      cases bs with
      | nil =>
          rw [display_tuple_nil, display_tuple_nil] at same
          exact (List.cons.inj same).2
      | cons b bs =>
          rw [display_tuple_nil, display_tuple_cons] at same
          exact absurd (List.cons.inj same).2.symm (display_ne_bracket b _)
  | cons a as =>
      cases bs with
      | nil =>
          rw [display_tuple_cons, display_tuple_nil] at same
          exact absurd (List.cons.inj same).2 (display_ne_bracket a _)
      | cons b bs =>
          rw [display_tuple_cons, display_tuple_cons] at same
          rw [listed_cons, listed_cons, (List.cons.inj same).2]

mutual

/-- A key without NaN is read off the front of a text in one way. -/
theorem display_append_inj : (a b : Key) → a.holdsNaN = false → ∀ front back : List Char,
    Stops front → Stops back → a.display.toList ++ front = b.display.toList ++ back →
    a = b ∧ front = back
  | boolean x, boolean y, _ => by
      intro front back _ _ same
      rw [display, display] at same
      cases x <;> cases y <;> simp_all
  | number x, number y, proper => by
      intro front back stops stopped same
      rw [display, display] at same
      rw [holdsNaN] at proper
      obtain ⟨rfl, behind⟩ := Numeral.plain_append_inj proper stops.notPart stopped.notPart same
      exact ⟨rfl, behind⟩
  | text x, text y, _ => by
      intro front back _ _ same
      rw [display, display] at same
      obtain ⟨rfl, behind⟩ := Text.Quoted.render_append_inj same
      exact ⟨rfl, behind⟩
  | tuple as, tuple bs, proper => by
      intro front back _ _ same
      rw [holdsNaN] at proper
      obtain ⟨rfl, behind⟩ := listed_append_inj as bs proper front back (listed_eq same)
      exact ⟨rfl, behind⟩
  | boolean _, number _, _ | boolean _, text _, _ | boolean _, tuple _, _
  | number _, boolean _, _ | number _, text _, _ | number _, tuple _, _
  | text _, boolean _, _ | text _, number _, _ | text _, tuple _, _
  | tuple _, boolean _, _ | tuple _, number _, _ | tuple _, text _, _ =>
      -- Keys of two kinds differ in the first character of their texts.
      fun _ _ _ _ same => absurd (kindRank_eq same) (by simp [kindRank])

theorem listed_append_inj : (as bs : List Key) → holdsNaNItems as = false →
    ∀ front back : List Char, listed as ++ ']' :: front = listed bs ++ ']' :: back →
    as = bs ∧ front = back
  | [], [], _ => fun front back same => ⟨rfl, (List.cons.inj same).2⟩
  | [], b :: bs, _ => fun front back same => absurd (List.cons.inj same).1 (by decide)
  | a :: as, [], _ => fun front back same => absurd (List.cons.inj same).1 (by decide)
  | a :: as, b :: bs, proper => by
      intro front back same
      rw [holdsNaNItems, Bool.or_eq_false_iff] at proper
      rw [listed_cons, listed_cons] at same
      -- Behind an item stands the comma of the next one or the bracket of the tuple.
      obtain ⟨rfl, later⟩ := display_append_inj a b proper.1 _ _ (stops_listed as front)
        (stops_listed bs back) (List.cons.inj (List.cons.inj same).2).2
      obtain ⟨rfl, behind⟩ := listed_append_inj as bs proper.2 front back later
      exact ⟨rfl, behind⟩

end

theorem eq_of_display_eq (proper : a.holdsNaN = false) (same : a.display = b.display) : a = b := by
  have chars : a.display.toList ++ [] = b.display.toList ++ [] := by rw [same]
  exact (display_append_inj a b proper [] [] stops_nil stops_nil chars).1

end LinkedViews.Key
