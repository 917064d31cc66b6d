import LinkedViews.Proofs.Json.Literal
import LinkedViews.Proofs.Number.Json

/-!
The value that a text stands for by the grammar of JSON. A number without point and exponent is a
whole number of any size, and any other one is the nearest binary number. Main statement: the text
of a value, with closing tags guarded, stands for that value.
-/

namespace LinkedViews.Json

variable {c : Char} {shown whole tail rest : List Char} {negative : Bool}

namespace Grammar

/-! ## Numbers -/

def isFigure (c : Char) : Bool := Numeral.isFigure c || c = 'E'

/-- The number of figures behind the sign: digits, of which a zero in front is the only one, then a
point with digits, an exponent, or both. -/
def unsigned? (negative : Bool) (figures : List Char) : Option Json :=
  let whole := figures.takeWhile Char.isDigit
  let behind := figures.dropWhile Char.isDigit
  if whole = [] ∨ (whole.head? = some '0' ∧ whole ≠ ['0']) ∨
      (behind.head? = some '.' ∧ behind.tail.head?.any Char.isDigit = false) then none
  else if behind = [] then
    some (.integer (if negative then -(Numeral.valueOf whole : Int) else Numeral.valueOf whole))
  else (Numeral.readDecimal? figures).map fun d => .real (d.toBinary negative)

def number? : List Char → Option Json
  | '-' :: figures => unsigned? true figures
  | figures => unsigned? false figures

theorem number?_signed (head : shown.head?.any Char.isDigit = true) :
    number? (if negative then '-' :: shown else shown) = unsigned? negative shown := by
  cases negative with
  | true => rfl
  | false =>
      cases shown with
      | nil => contradiction
      | cons c rest =>
          have plain : c ≠ '-' := by
            intro same
            rw [same] at head
            contradiction
          rw [if_neg Bool.false_ne_true, number?]
          intro figures same
          exact plain (List.cons.inj same).1

theorem unsigned?_whole (nonempty : whole ≠ []) (unpadded : whole.head? = some '0' → whole = ['0'])
    (digits : ∀ c ∈ whole, c.isDigit = true) :
    unsigned? negative whole =
      some (.integer (if negative then -(Numeral.valueOf whole : Int)
        else Numeral.valueOf whole)) := by
  have run : whole.takeWhile Char.isDigit = whole := List.takeWhile_eq_self_iff.mpr digits
  have behind : whole.dropWhile Char.isDigit = [] := List.dropWhile_eq_nil_iff.mpr digits
  have sound : ¬ (whole = [] ∨ (whole.head? = some '0' ∧ whole ≠ ['0']) ∨
      (([] : List Char).head? = some '.' ∧
        ([] : List Char).tail.head?.any Char.isDigit = false)) := by
    rintro (empty | ⟨zero, other⟩ | ⟨point, _⟩)
    · exact nonempty empty
    · exact other (unpadded zero)
    · contradiction
  rw [unsigned?, run, behind]
  exact (if_neg sound).trans (if_pos rfl)

/-- With anything behind its whole part, a number is the one that its decimal rounds to. -/
theorem unsigned?_tail (nonempty : whole ≠ [])
    (unpadded : whole.head? = some '0' → whole = ['0']) (digits : ∀ c ∈ whole, c.isDigit = true)
    (ends : c.isDigit = false) (point : c = '.' → tail.head?.any Char.isDigit = true) :
    unsigned? negative (whole ++ c :: tail) =
      (Numeral.readDecimal? (whole ++ c :: tail)).map fun d => .real (d.toBinary negative) := by
  have run : (whole ++ c :: tail).takeWhile Char.isDigit = whole := by
    rw [List.takeWhile_append_of_pos digits]
    simp [ends]
  have behind : (whole ++ c :: tail).dropWhile Char.isDigit = c :: tail := by
    rw [List.dropWhile_append_of_pos digits]
    simp [ends]
  have sound : ¬ (whole = [] ∨ (whole.head? = some '0' ∧ whole ≠ ['0']) ∨
      ((c :: tail).head? = some '.' ∧ (c :: tail).tail.head?.any Char.isDigit = false)) := by
    rintro (empty | ⟨zero, other⟩ | ⟨same, bare⟩)
    · exact nonempty empty
    · exact other (unpadded zero)
    · have digit := point (Option.some.inj same)
      rw [List.tail_cons, digit] at bare
      contradiction
  rw [unsigned?, run, behind]
  exact (if_neg sound).trans (if_neg (List.cons_ne_nil c tail))

theorem unsigned?_positional (d : Decimal) :
    unsigned? negative (Numeral.positional true d) =
      (Numeral.readDecimal? (Numeral.positional true d)).map
        fun d => .real (d.toBinary negative) := by
  obtain ⟨whole, fraction, shape, nonempty, behind, unpadded, digits, _⟩ :=
    Numeral.positional_pointed d
  obtain ⟨digit, more, rfl⟩ := List.exists_cons_of_ne_nil behind
  have first : digit.isDigit = true := digits digit (by simp)
  rw [shape]
  exact unsigned?_tail nonempty unpadded (fun c member => digits c (by simp [member])) (by decide)
    fun _ => first

theorem unsigned?_scientific (d : Decimal) :
    unsigned? negative (Numeral.scientific d) =
      (Numeral.readDecimal? (Numeral.scientific d)).map fun d => .real (d.toBinary negative) := by
  obtain ⟨c, rest, own, shape⟩ := Numeral.scientific_shape d
  have digit (e : Char) (member : e ∈ c :: rest) : e.isDigit = true :=
    Numeral.isDigit_of_mem_digits (own ▸ member)
  have single : [c].head? = some '0' → [c] = ['0'] := fun zero => by rw [Option.some.inj zero]
  have whole : ∀ e ∈ [c], e.isDigit = true := fun e member =>
    digit e (List.mem_cons.mpr (.inl (List.mem_singleton.mp member)))
  rw [shape]
  cases rest with
  | nil =>
      exact unsigned?_tail (List.cons_ne_nil c []) single whole (by decide) fun other => by
        contradiction
  | cons e more =>
      exact unsigned?_tail (List.cons_ne_nil c []) single whole (by decide) fun _ =>
        digit e (by simp)

theorem number?_ofInt (value : Int) :
    number? (Numeral.ofInt value).toList = some (.integer value) := by
  have shape := Numeral.isFigures_digits value.natAbs
  have unpadded (padded : (Numeral.digits value.natAbs).head? = some '0') :
      Numeral.digits value.natAbs = ['0'] := by
    rw [Numeral.eq_zero_of_head_digits padded, Numeral.digits_zero]
  have read : number? (if decide (value < 0) then '-' :: Numeral.digits value.natAbs
      else Numeral.digits value.natAbs) =
        unsigned? (decide (value < 0)) (Numeral.digits value.natAbs) := number?_signed shape.head
  rw [unsigned?_whole (Numeral.digits_ne_nil _) unpadded fun c => Numeral.isDigit_of_mem_digits,
    Numeral.valueOf_digits] at read
  simp only [decide_eq_true_eq] at read
  rw [Numeral.toList_ofInt, read]
  split
  · exact congrArg (fun value => some (integer value)) (by omega)
  · exact congrArg (fun value => some (integer value)) (by omega)

theorem number?_json {x : Binary64} (finite : x.isFinite = true) :
    number? (Numeral.json x).toList = some (.real x) := by
  have signed {text : List Char} (figures : Numeral.IsFigures (.shortest .even x.magnitude) text)
      (real : unsigned? x.isNegative text =
        (Numeral.readDecimal? text).map fun d => .real (d.toBinary x.isNegative)) :
      number? (Numeral.signed x.isNegative text).toList = some (.real x) := by
    obtain ⟨d, read, same⟩ := figures.read
    rw [Numeral.signed, String.toList_ofList, number?_signed figures.head, real, read,
      Option.map_some, Decimal.toBinary, same,
      Decimal.magnitude_shortest .even (of_decide_eq_true finite), Binary64.ofParts_self]
  unfold Numeral.json
  dsimp only
  split
  · exact signed (Numeral.isFigures_positional _) (unsigned?_positional _)
  · exact signed (Numeral.isFigures_scientific _) (unsigned?_scientific _)

/-! ## Values -/

def skip (shown : List Char) : List Char := shown.dropWhile Reader.isSpace

/-- A string from behind its opening quote, and what stands behind it. -/
def text? (shown : List Char) : Option (String × List Char) :=
  match Reader.textRest ⟨shown, ⟨1, 0⟩⟩ with
  | .done value cursor => some (value, cursor.rest)
  | _ => none

def word? : List Char → Option (Json × List Char)
  | 'n' :: 'u' :: 'l' :: 'l' :: rest => some (.null, rest)
  | 't' :: 'r' :: 'u' :: 'e' :: rest => some (.boolean true, rest)
  | 'f' :: 'a' :: 'l' :: 's' :: 'e' :: rest => some (.boolean false, rest)
  | _ => none

/-- A word or a number at the front of a text. -/
def scalar? (shown : List Char) : Option (Json × List Char) :=
  match word? shown with
  | some found => some found
  | none => (number? (shown.takeWhile isFigure)).map fun value => (value, shown.dropWhile isFigure)

mutual

/-- A value at the front of a text, and what stands behind it. -/
def value? : Nat → List Char → Option (Json × List Char)
  | 0, _ => none
  | fuel + 1, shown =>
    match skip shown with
    | '"' :: rest => (text? rest).map fun (value, behind) => (.text value, behind)
    | '[' :: rest =>
      if (skip rest).head? = some ']' then some (.array [], (skip rest).tail)
      else (items? fuel rest).map fun (items, behind) => (.array items, behind)
    | '\x7b' :: rest =>
      if (skip rest).head? = some '\x7d' then some (.object [], (skip rest).tail)
      else (members? fuel rest).map fun (members, behind) => (.object members, behind)
    | shown => scalar? shown

/-- The items of a list that is not empty, up to its closing bracket. -/
def items? : Nat → List Char → Option (List Json × List Char)
  | 0, _ => none
  | fuel + 1, shown =>
    match value? fuel shown with
    | none => none
    | some (item, behind) =>
      match skip behind with
      | ']' :: rest => some ([item], rest)
      | ',' :: rest => (items? fuel rest).map fun (items, behind) => (item :: items, behind)
      | _ => none

def members? : Nat → List Char → Option (List (String × Json) × List Char)
  | 0, _ => none
  | fuel + 1, shown =>
    match member? fuel shown with
    | none => none
    | some (member, behind) =>
      match skip behind with
      | '\x7d' :: rest => some ([member], rest)
      | ',' :: rest => (members? fuel rest).map fun (members, behind) => (member :: members, behind)
      | _ => none

def member? : Nat → List Char → Option ((String × Json) × List Char)
  | 0, _ => none
  | fuel + 1, shown =>
    match skip shown with
    | '"' :: rest =>
      (text? rest).bind fun (name, behind) =>
        match skip behind with
        | ':' :: rest => (value? fuel rest).map fun (value, behind) => ((name, value), behind)
        | _ => none
    | _ => none

end

/-- The value of a whole text. -/
def parse? (shown : List Char) : Option Json :=
  match value? (2 * shown.length + 1) shown with
  | some (value, behind) => if skip behind = [] then some value else none
  | none => none

end Grammar

/-! ## Written values -/

mutual

/-- The value that is written in place of another one: null for a number without a finite value. -/
def written : Json → Json
  | .null => .null
  | .boolean value => .boolean value
  | .integer value => .integer value
  | .real value => if value.isFinite then .real value else .null
  | .text value => .text value
  | .array items => .array (writtenItems items)
  | .object members => .object (writtenMembers members)

def writtenItems : List Json → List Json
  | [] => []
  | item :: rest => written item :: writtenItems rest

def writtenMembers : List (String × Json) → List (String × Json)
  | [] => []
  | member :: rest => writtenMember member :: writtenMembers rest

def writtenMember : String × Json → String × Json
  | (name, value) => (name, written value)

end

theorem writtenItems_eq (items : List Json) : writtenItems items = items.map written := by
  induction items with
  | nil => rfl
  | cons item rest ih => rw [writtenItems, ih, List.map_cons]

theorem writtenMembers_eq (members : List (String × Json)) :
    writtenMembers members = members.map writtenMember := by
  induction members with
  | nil => rfl
  | cons member rest ih => rw [writtenMembers, ih, List.map_cons]

namespace Grammar

/-! ## Reading what is written -/

/-- A way to put down the text of a value. It may write a string differently, as long as that still
stands for the same text. -/
structure Form where
  write : List Char → List Char
  write_nil : write [] = []
  write_append_cons : ∀ (front back : List Char) {c : Char}, c ≠ '<' → c ≠ '/' →
    write (front ++ c :: back) = write front ++ c :: write back
  write_quoteChars : ∀ text, ∃ body, write (quoteChars text) = '"' :: body ++ ['"'] ∧
    Spells text body

namespace Form

def plain : Form where
  write := id
  write_nil := rfl
  write_append_cons _ _ _ _ _ := rfl
  write_quoteChars text := ⟨_, rfl, spells_flatMap_escapeChar text⟩

def guarded : Form where
  write := guardTags
  write_nil := rfl
  write_append_cons front back _ := guardTags_append_cons front back
  write_quoteChars text := ⟨_, guardTags_quoteChars text, spells_literalBody text⟩

variable {form : Form}

theorem write_cons (opening : c ≠ '<') (slash : c ≠ '/') (rest : List Char) :
    form.write (c :: rest) = c :: form.write rest := by
  have split := form.write_append_cons [] rest opening slash
  rw [form.write_nil] at split
  exact split

theorem write_eq (opening : '<' ∉ shown) (slash : '/' ∉ shown) : form.write shown = shown := by
  induction shown with
  | nil => exact form.write_nil
  | cons c rest ih =>
      have kept := ih (fun member => opening (List.mem_cons_of_mem c member))
        (fun member => slash (List.mem_cons_of_mem c member))
      rw [write_cons (by rintro rfl; simp at opening) (by rintro rfl; simp at slash), kept]

theorem write_enclosed (shown : List Char) {opening closing : Char}
    (plain : ∀ c ∈ [opening, closing], c ≠ '<' ∧ c ≠ '/') :
    form.write (opening :: shown ++ [closing]) = opening :: form.write shown ++ [closing] := by
  have first := plain opening (by simp)
  have last := plain closing (by simp)
  rw [form.write_append_cons _ _ last.1 last.2, form.write_nil, write_cons first.1 first.2]

/-- What is no string is written alike in every form. -/
theorem write_scalarChars {value : Json} (noText : ∀ text, value ≠ .text text) :
    '<' ∉ scalarChars value ∧ form.write (scalarChars value) = scalarChars value := by
  have absent (chars : List Char) (figures : ∀ c ∈ chars, Numeral.isFigure c = true) :
      '<' ∉ chars ∧ '/' ∉ chars :=
    ⟨fun member => absurd (figures _ member) (by decide),
      fun member => absurd (figures _ member) (by decide)⟩
  have plain : '<' ∉ scalarChars value ∧ '/' ∉ scalarChars value := by
    cases value with
    | text text => exact absurd rfl (noText text)
    | boolean value => cases value <;> decide
    | integer value => exact absent _ fun _ => Numeral.isFigure_of_mem_ofInt
    | real value =>
        rw [scalarChars]
        split
        · exact absent _ fun _ => Numeral.isFigure_of_mem_json
        · decide
    | _ => simp [scalarChars]
  exact ⟨plain.1, write_eq plain.1 plain.2⟩

end Form

theorem text?_spells {text body : List Char} (spells : Spells text body) (rest : List Char) :
    text? (body ++ '"' :: rest) = some (String.ofList text, rest) := by
  have enough : text.length < (body ++ '"' :: rest).length + 1 := by
    have least := spells.length_le
    rw [List.length_append]
    omega
  obtain ⟨behind, read⟩ := Reader.textBody_spells spells [] rest ⟨1, 0⟩ enough
  rw [text?, Reader.textRest, read]
  rfl

/-- Whether a text cannot continue a number. -/
def Ends (rest : List Char) : Prop := ∀ c ∈ rest.head?, isFigure c = false

theorem Ends.cons (rest : List Char) (mark : isFigure c = false) : Ends (c :: rest) := by
  intro d first
  obtain rfl := Option.some.inj first
  exact mark

/-- The characters that values begin with. -/
def isOpening (c : Char) : Bool := c.isDigit || c ∈ ['"', '[', '\x7b', '-', 'n', 't', 'f']

theorem skip_cons (solid : Reader.isSpace c = false) (rest : List Char) :
    skip (c :: rest) = c :: rest := by
  rw [skip, List.dropWhile_cons_of_neg (by rw [solid]; exact Bool.false_ne_true)]

theorem isSpace_of_isDigit (digit : c.isDigit = true) : Reader.isSpace c = false := by
  simp only [Reader.isSpace, Bool.or_eq_false_iff, decide_eq_false_iff_not]
  and_intros
  all_goals
    intro same
    rw [same] at digit
    contradiction

theorem isSpace_of_isOpening (opens : isOpening c = true) : Reader.isSpace c = false := by
  rw [isOpening, Bool.or_eq_true, decide_eq_true_eq] at opens
  cases opens with
  | inl digit => exact isSpace_of_isDigit digit
  | inr mark =>
      have all : ∀ c ∈ ['"', '[', '\x7b', '-', 'n', 't', 'f'], Reader.isSpace c = false := by
        simp [Reader.isSpace]
      exact all c mark

theorem ne_of_isOpening {d : Char} (opens : isOpening c = true) (other : isOpening d = false) :
    c ≠ d := by
  intro same
  rw [same, other] at opens
  contradiction

theorem isOpening_signed {negative : Prop} [Decidable negative]
    (head : shown.head?.any Char.isDigit = true) :
    ∃ c rest, (if negative then '-' :: shown else shown) = c :: rest ∧ isOpening c = true := by
  cases shown with
  | nil => contradiction
  | cons c rest =>
      have digit : c.isDigit = true := head
      split
      · exact ⟨'-', c :: rest, rfl, by decide⟩
      · exact ⟨c, rest, rfl, by simp [isOpening, digit]⟩

theorem isOpening_scalar (value : Json) :
    ∃ c rest, scalarChars value = c :: rest ∧ isOpening c = true := by
  cases value with
  | boolean value => cases value <;> exact ⟨_, _, rfl, by decide⟩
  | integer value =>
      rw [scalarChars, Numeral.toList_ofInt]
      exact isOpening_signed (Numeral.isFigures_digits _).head
  | real value =>
      obtain ⟨text, shape, figures⟩ := Numeral.exists_json value
      rw [scalarChars, shape, Numeral.signed, String.toList_ofList]
      split
      · exact isOpening_signed figures.head
      · exact ⟨_, _, rfl, by decide⟩
  | text value => exact ⟨_, _, rfl, by decide⟩
  | _ => exact ⟨_, _, rfl, by decide⟩

/-- What a value is written with begins with none of the characters around values. -/
theorem exists_opening (form : Form) (value : Json) :
    ∃ c rest, form.write (compactChars value) = c :: rest ∧ isOpening c = true := by
  have first : ∃ c rest, compactChars value = c :: rest ∧ isOpening c = true := by
    cases value with
    | array items => exact ⟨_, _, rfl, by decide⟩
    | object members => exact ⟨_, _, rfl, by decide⟩
    | _ =>
        rw [compactChars]
        exact isOpening_scalar _
  obtain ⟨c, rest, shape, opens⟩ := first
  have plain : c ≠ '<' ∧ c ≠ '/' :=
    ⟨ne_of_isOpening opens (by decide), ne_of_isOpening opens (by decide)⟩
  refine ⟨c, form.write rest, ?_, opens⟩
  rw [shape, Form.write_cons plain.1 plain.2]

/-! ### Scalars -/

theorem word?_figure (figure : isFigure c = true) (rest : List Char) :
    word? (c :: rest) = none := by
  unfold word?
  split
  all_goals first
    | rfl
    | rename_i same
      rw [(List.cons.inj same).1] at figure
      contradiction

/-- Figures are read up to the first character that cannot continue them. -/
theorem scalar?_figures {value : Json} {figures : List Char} (read : number? figures = some value)
    (nonempty : figures ≠ []) (all : ∀ c ∈ figures, isFigure c = true) (ends : Ends rest) :
    scalar? (figures ++ rest) = some (value, rest) := by
  obtain ⟨c, more, rfl⟩ := List.exists_cons_of_ne_nil nonempty
  have stop : rest.takeWhile isFigure = [] ∧ rest.dropWhile isFigure = rest := by
    cases rest with
    | nil => exact ⟨rfl, rfl⟩
    | cons d behind => simp [ends d rfl]
  have run : (c :: more ++ rest).takeWhile isFigure = c :: more := by
    rw [List.takeWhile_append_of_pos all, stop.1, List.append_nil]
  have behind : (c :: more ++ rest).dropWhile isFigure = rest := by
    rw [List.dropWhile_append_of_pos all, stop.2]
  have noWord : word? (c :: more ++ rest) = none := word?_figure (all c List.mem_cons_self) _
  rw [scalar?, noWord]
  dsimp only
  rw [run, behind, read, Option.map_some]

theorem isFigure_of_isFigure (figure : Numeral.isFigure c = true) : isFigure c = true := by
  rw [isFigure, figure, Bool.true_or]

theorem value?_scalar {fuel : Nat} (opens : isOpening c = true) (text : c ≠ '"') (list : c ≠ '[')
    (object : c ≠ '\x7b') (rest : List Char) :
    value? (fuel + 1) (c :: rest) = scalar? (c :: rest) := by
  rw [value?, skip_cons (isSpace_of_isOpening opens)]
  split
  · rename_i same
    exact absurd (List.cons.inj same).1 text
  · rename_i same
    exact absurd (List.cons.inj same).1 list
  · rename_i same
    exact absurd (List.cons.inj same).1 object
  · rfl

/-- A number is read as a value. -/
theorem value?_figures {value : Json} {figures : List Char} {fuel : Nat}
    (read : number? figures = some value) (all : ∀ c ∈ figures, isFigure c = true)
    (first : ∃ c rest, figures = c :: rest ∧ isOpening c = true) (ends : Ends rest) :
    value? (fuel + 1) (figures ++ rest) = some (value, rest) := by
  have scalar := scalar?_figures read (by rintro rfl; simp at first) all ends
  obtain ⟨c, more, rfl, opens⟩ := first
  have figure := all c List.mem_cons_self
  have other {d : Char} (strange : isFigure d = false) : c ≠ d := by
    intro same
    rw [same, strange] at figure
    contradiction
  rw [List.cons_append, value?_scalar opens (other (by decide)) (other (by decide))
    (other (by decide))]
  exact scalar

/-! ### Containers -/

section Containers

variable {fuel : Nat} {value item : Json} {items : List Json} {member : String × Json}
  {members : List (String × Json)} {more inner : List Char}

theorem skip_mark (mark : c ∈ [',', ':', ']', '\x7d']) (rest : List Char) :
    skip (c :: rest) = c :: rest := by
  apply skip_cons
  have all : ∀ c ∈ [',', ':', ']', '\x7d'], Reader.isSpace c = false := by
    simp [Reader.isSpace]
  exact all c mark

theorem value?_list (opens : isOpening c = true)
    (read : items? fuel (c :: inner) = some (items, rest)) :
    value? (fuel + 1) ('[' :: c :: inner) = some (.array items, rest) := by
  have bracket : Reader.isSpace '[' = false := by decide
  have other : ¬ (skip (c :: inner)).head? = some ']' := by
    rw [skip_cons (isSpace_of_isOpening opens)]
    intro same
    exact ne_of_isOpening opens (by decide) (Option.some.inj same)
  rw [value?, skip_cons bracket]
  refine (if_neg other).trans ?_
  rw [read, Option.map_some]

theorem value?_object (read : members? fuel ('"' :: inner) = some (members, rest)) :
    value? (fuel + 1) ('\x7b' :: '"' :: inner) = some (.object members, rest) := by
  have brace : Reader.isSpace '\x7b' = false := by decide
  have other : ¬ (skip ('"' :: inner)).head? = some '\x7d' := by
    rw [skip_cons (by decide)]
    intro same
    exact absurd (Option.some.inj same) (by decide)
  rw [value?, skip_cons brace]
  refine (if_neg other).trans ?_
  rw [read, Option.map_some]

theorem items?_last (read : value? fuel shown = some (item, inner))
    (ends : skip inner = ']' :: rest) : items? (fuel + 1) shown = some ([item], rest) := by
  rw [items?, read]
  dsimp only
  rw [ends]
  rfl

theorem items?_cons (read : value? fuel shown = some (item, ',' :: more))
    (later : items? fuel more = some (items, rest)) :
    items? (fuel + 1) shown = some (item :: items, rest) := by
  rw [items?, read]
  dsimp only
  rw [skip_mark (by simp)]
  change (items? fuel more).map _ = _
  rw [later, Option.map_some]

theorem members?_last (read : member? fuel shown = some (member, inner))
    (ends : skip inner = '\x7d' :: rest) : members? (fuel + 1) shown = some ([member], rest) := by
  rw [members?, read]
  dsimp only
  rw [ends]
  rfl

theorem members?_cons (read : member? fuel shown = some (member, ',' :: more))
    (later : members? fuel more = some (members, rest)) :
    members? (fuel + 1) shown = some (member :: members, rest) := by
  rw [members?, read]
  dsimp only
  rw [skip_mark (by simp)]
  change (members? fuel more).map _ = _
  rw [later, Option.map_some]

theorem member?_quoted {name body : List Char} (spells : Spells name body)
    (read : value? fuel more = some (value, rest)) :
    member? (fuel + 1) ('"' :: body ++ '"' :: ':' :: more) =
      some ((String.ofList name, value), rest) := by
  have quote : Reader.isSpace '"' = false := by decide
  have named : text? (body ++ '"' :: ':' :: more) = some (String.ofList name, ':' :: more) :=
    text?_spells spells (':' :: more)
  rw [member?, List.cons_append, skip_cons quote]
  change (text? (body ++ '"' :: ':' :: more)).bind _ = _
  rw [named, Option.bind_some]
  dsimp only
  rw [skip_mark (by simp)]
  change (value? fuel more).map _ = _
  rw [read, Option.map_some]

end Containers

section Form

variable (form : Form)

theorem write_separated (item next : List Char) (others : List (List Char)) :
    form.write (separated [','] (item :: next :: others)) =
      form.write item ++ ',' :: form.write (separated [','] (next :: others)) := by
  rw [separated, List.append_assoc, List.singleton_append,
    form.write_append_cons _ _ (by decide) (by decide)]
  exact List.cons_ne_nil next others

theorem write_member (name : String) (value : Json) :
    ∃ body, Spells name.toList body ∧
      form.write (compactMember (name, value)) =
        '"' :: body ++ '"' :: ':' :: form.write (compactChars value) := by
  obtain ⟨body, shape, spells⟩ := form.write_quoteChars name.toList
  refine ⟨body, spells, ?_⟩
  rw [compactMember, form.write_append_cons _ _ (by decide) (by decide), shape, List.append_assoc,
    List.singleton_append]

theorem exists_opening_items (item : Json) (others : List Json) :
    ∃ c rest, form.write (separated [','] (compactItems (item :: others))) = c :: rest ∧
      isOpening c = true := by
  obtain ⟨c, rest, shape, opens⟩ := exists_opening form item
  cases others with
  | nil => exact ⟨c, rest, shape, opens⟩
  | cons next more =>
      have split := write_separated form (compactChars item) (compactChars next) (compactItems more)
      rw [shape, List.cons_append] at split
      exact ⟨c, _, split, opens⟩

theorem exists_quote_members (name : String) (value : Json) (others : List (String × Json)) :
    ∃ rest, form.write (separated [','] (compactMembers ((name, value) :: others))) =
      '"' :: rest := by
  obtain ⟨body, _, shape⟩ := write_member form name value
  cases others with
  | nil => exact ⟨_, shape⟩
  | cons next more =>
      have split := write_separated form (compactMember (name, value)) (compactMember next)
        (compactMembers more)
      rw [shape, List.append_assoc, List.cons_append] at split
      exact ⟨_, split⟩

mutual

/-- Each step takes up a character, or is followed by one that does. -/
theorem value?_compactChars : (value : Json) → (fuel : Nat) → (rest : List Char) →
    2 * (form.write (compactChars value)).length ≤ fuel → Ends rest →
      value? (fuel + 1) (form.write (compactChars value) ++ rest) = some (value.written, rest)
  | .null, fuel, rest, _, _ => by
      rw [compactChars, (form.write_scalarChars fun _ => Json.noConfusion).2]
      exact value?_scalar (by decide) (by decide) (by decide) (by decide) _
  | .boolean value, fuel, rest, _, _ => by
      rw [compactChars, (form.write_scalarChars fun _ => Json.noConfusion).2]
      cases value with
      | false => exact value?_scalar (by decide) (by decide) (by decide) (by decide) _
      | true => exact value?_scalar (by decide) (by decide) (by decide) (by decide) _
  | .integer value, fuel, rest, _, ends => by
      rw [compactChars, (form.write_scalarChars fun _ => Json.noConfusion).2]
      exact value?_figures (number?_ofInt value)
        (fun c member => isFigure_of_isFigure (Numeral.isFigure_of_mem_ofInt member))
        (isOpening_scalar (.integer value)) ends
  | .real value, fuel, rest, _, ends => by
      have first := isOpening_scalar (.real value)
      rw [compactChars, (form.write_scalarChars fun _ => Json.noConfusion).2, written]
      rw [scalarChars] at first ⊢
      by_cases finite : value.isFinite = true
      · rw [if_pos finite] at first
        rw [if_pos finite, if_pos finite]
        exact value?_figures (number?_json finite)
          (fun c member => isFigure_of_isFigure (Numeral.isFigure_of_mem_json member)) first ends
      · rw [if_neg finite, if_neg finite]
        exact value?_scalar (by decide) (by decide) (by decide) (by decide) _
  | .text value, fuel, rest, _, _ => by
      obtain ⟨body, shape, spells⟩ := form.write_quoteChars value.toList
      have read := text?_spells spells rest
      have quote : Reader.isSpace '"' = false := by decide
      rw [compactChars, scalarChars, shape, List.append_assoc, List.cons_append,
        List.singleton_append, value?, skip_cons quote]
      change (text? (body ++ '"' :: rest)).map _ = _
      rw [read, Option.map_some, String.ofList_toList, written]
  | .array [], fuel, rest, _, _ => by
      rw [compactChars, compactItems, separated, Form.write_enclosed _ (by simp), form.write_nil]
      rfl
  | .array (item :: others), fuel, rest, enough, _ => by
      obtain ⟨c, inner, opening, opens⟩ := exists_opening_items form item others
      have nonempty := List.cons_ne_nil item others
      rw [compactChars, Form.write_enclosed _ (by simp)] at enough ⊢
      simp only [List.length_append, List.length_cons, List.length_nil] at enough
      obtain ⟨fuel, rfl⟩ : ∃ less, fuel = less + 2 := ⟨fuel - 2, by omega⟩
      have read := items?_compactItems (item :: others) nonempty fuel rest (by omega)
      rw [opening, List.cons_append] at read
      rw [opening, List.append_assoc, List.cons_append, List.cons_append, List.singleton_append]
      exact value?_list opens read
  | .object [], fuel, rest, _, _ => by
      rw [compactChars, compactMembers, separated, Form.write_enclosed _ (by simp),
        form.write_nil]
      rfl
  | .object ((name, value) :: others), fuel, rest, enough, _ => by
      obtain ⟨inner, opening⟩ := exists_quote_members form name value others
      have nonempty := List.cons_ne_nil (name, value) others
      rw [compactChars, Form.write_enclosed _ (by simp)] at enough ⊢
      simp only [List.length_append, List.length_cons, List.length_nil] at enough
      obtain ⟨fuel, rfl⟩ : ∃ less, fuel = less + 3 := ⟨fuel - 3, by omega⟩
      have read := members?_compactMembers ((name, value) :: others) nonempty fuel rest (by omega)
      rw [opening, List.cons_append] at read
      rw [opening, List.append_assoc, List.cons_append, List.cons_append, List.singleton_append]
      exact value?_object read

theorem items?_compactItems : (items : List Json) → items ≠ [] → (fuel : Nat) →
    (rest : List Char) → 2 * (form.write (separated [','] (compactItems items))).length ≤ fuel →
      items? (fuel + 2) (form.write (separated [','] (compactItems items)) ++ ']' :: rest) =
        some (writtenItems items, rest)
  | [], nonempty, _, _, _ => absurd rfl nonempty
  | [item], _, fuel, rest, enough =>
      items?_last (value?_compactChars item fuel _ enough (.cons rest (by decide)))
        (skip_mark (by simp) rest)
  | item :: next :: others, _, fuel, rest, enough => by
      have shape : form.write (separated [','] (compactItems (item :: next :: others))) =
          form.write (compactChars item) ++
            ',' :: form.write (separated [','] (compactItems (next :: others))) :=
        write_separated ..
      rw [shape, List.length_append, List.length_cons] at enough
      obtain ⟨fuel, rfl⟩ : ∃ less, fuel = less + 1 := ⟨fuel - 1, by omega⟩
      have first := value?_compactChars item (fuel + 1)
        (',' :: (form.write (separated [','] (compactItems (next :: others))) ++ ']' :: rest))
        (by omega) (.cons _ (by decide))
      have later := items?_compactItems (next :: others) (List.cons_ne_nil next others) fuel rest
        (by omega)
      rw [shape, List.append_assoc, List.cons_append]
      exact items?_cons first later

theorem members?_compactMembers : (members : List (String × Json)) → members ≠ [] →
    (fuel : Nat) → (rest : List Char) →
    2 * (form.write (separated [','] (compactMembers members))).length ≤ fuel →
      members? (fuel + 3)
          (form.write (separated [','] (compactMembers members)) ++ '\x7d' :: rest) =
        some (writtenMembers members, rest)
  | [], nonempty, _, _, _ => absurd rfl nonempty
  | [member], _, fuel, rest, enough =>
      members?_last (member?_compactMember member fuel _ enough (.cons rest (by decide)))
        (skip_mark (by simp) rest)
  | member :: next :: others, _, fuel, rest, enough => by
      have shape : form.write (separated [','] (compactMembers (member :: next :: others))) =
          form.write (compactMember member) ++
            ',' :: form.write (separated [','] (compactMembers (next :: others))) :=
        write_separated ..
      rw [shape, List.length_append, List.length_cons] at enough
      obtain ⟨fuel, rfl⟩ : ∃ less, fuel = less + 1 := ⟨fuel - 1, by omega⟩
      have first := member?_compactMember member (fuel + 1)
        (',' :: (form.write (separated [','] (compactMembers (next :: others))) ++ '\x7d' :: rest))
        (by omega) (.cons _ (by decide))
      have later := members?_compactMembers (next :: others) (List.cons_ne_nil next others) fuel
        rest (by omega)
      rw [shape, List.append_assoc, List.cons_append]
      exact members?_cons first later

theorem member?_compactMember : (member : String × Json) → (fuel : Nat) → (rest : List Char) →
    2 * (form.write (compactMember member)).length ≤ fuel → Ends rest →
      member? (fuel + 2) (form.write (compactMember member) ++ rest) =
        some (writtenMember member, rest)
  | (name, value), fuel, rest, enough, ends => by
      obtain ⟨body, spells, shape⟩ := write_member form name value
      rw [shape] at enough ⊢
      simp only [List.length_append, List.length_cons] at enough
      have read := value?_compactChars value fuel rest (by omega) ends
      have quoted := member?_quoted spells read
      rw [String.ofList_toList] at quoted
      simpa [writtenMember] using quoted

end

/-- The text of a value stands for it, in either form. -/
theorem parse?_write (value : Json) :
    parse? (form.write (compactChars value)) = some value.written := by
  have read := value?_compactChars form value (2 * (form.write (compactChars value)).length) []
    (Nat.le_refl _) fun c first => by contradiction
  rw [List.append_nil] at read
  rw [parse?, read]
  rfl

end Form

theorem parse?_compact (value : Json) : parse? value.compact.toList = some value.written := by
  rw [compact, String.toList_ofList]
  exact parse?_write .plain value

theorem parse?_scriptText (value : Json) : parse? value.scriptText.toList = some value.written := by
  rw [scriptText, String.toList_ofList]
  exact parse?_write .guarded value

end Grammar

end LinkedViews.Json
