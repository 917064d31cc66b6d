import LinkedViews.Json.Lexeme

/-!
Ids on a page: how a selector names one, and which ones the markup of elements gives away. Both are
made by putting an id between other text, so each has characters that an id in it must not have.
-/

namespace LinkedViews

namespace Browser

variable {c d : Char} {text front name rest behind : List Char} {fuel : Nat}

/-! ## Selectors -/

namespace Selector

/-- The characters that stand for themselves in a name: letters, digits, dashes, underscores, and
whatever is not ASCII. -/
def isPart (c : Char) : Bool := c.isAlphanum || c = '-' || c = '_' || 0x80 ≤ c.toNat

def isStart (c : Char) : Bool := c.isAlpha || c = '_' || 0x80 ≤ c.toNat

def startsName : List Char → Bool
  | '-' :: c :: _ => isStart c || c = '-' || c = '\\'
  | c :: _ => isStart c || c = '\\'
  | [] => false

def isHexDigit (c : Char) : Bool := (Json.Reader.hexValue? c).isSome

/-- The character of a code, or the one that stands for none. -/
def ofCode (code : Nat) : Char :=
  if code = 0 ∨ (0xD800 ≤ code ∧ code ≤ 0xDFFF) ∨ 0x10FFFF < code then '\uFFFD'
  else Char.ofNat code

def skipSpace : List Char → List Char
  | c :: rest => if c ∈ ['\t', '\n', '\x0c', '\r', ' '] then rest else c :: rest
  | [] => []

/-- The character that stands behind a backslash, by itself or as a code of up to six digits that
white space may end. -/
def escape? (text : List Char) : Option (Char × List Char) :=
  let digits := (text.take 6).takeWhile isHexDigit
  if digits ≠ [] then
    some (ofCode (digits.foldl (fun value c => 16 * value + (Json.Reader.hexValue? c).getD 0) 0),
      skipSpace (text.drop digits.length))
  else match text with
    | [] => some ('\uFFFD', [])
    | c :: rest => if c ∈ ['\n', '\x0c', '\r'] then none else some (c, rest)

/-- The name that a whole text is. -/
def name? : Nat → List Char → Option (List Char)
  | 0, _ => none
  | _ + 1, [] => some []
  | fuel + 1, c :: rest =>
    if isPart c then (name? fuel rest).map (c :: ·)
    else if c = '\\' then
      (escape? rest).bind fun (d, behind) => (name? fuel behind).map (d :: ·)
    else none

/-- The id that a text selects, if it is nothing but the selector of an id. -/
def id? : List Char → Option (List Char)
  | '#' :: name => if startsName name then name? (name.length + 1) name else none
  | _ => none

theorem length_skipSpace (text : List Char) : (skipSpace text).length ≤ text.length := by
  cases text with
  | nil => exact Nat.le_refl 0
  | cons c rest =>
      rw [skipSpace]
      split
      · exact Nat.le_succ _
      · exact Nat.le_refl _

/-- What is escaped takes up characters, except at the end. -/
theorem length_escape? (read : escape? text = some (d, behind)) :
    behind.length < text.length ∨ (text = [] ∧ d = '\uFFFD') := by
  unfold escape? at read
  dsimp only at read
  split at read
  · rename_i digits
    obtain ⟨_, rfl⟩ := Prod.mk.inj (Option.some.inj read)
    have taken : 0 < ((text.take 6).takeWhile isHexDigit).length :=
      List.length_pos_iff.mpr digits
    have part : ((text.take 6).takeWhile isHexDigit).length ≤ text.length :=
      Nat.le_trans (List.takeWhile_prefix _).length_le (List.length_take_le' 6 text)
    have skipped := length_skipSpace (text.drop ((text.take 6).takeWhile isHexDigit).length)
    rw [List.length_drop] at skipped
    exact .inl (by omega)
  · split at read
    · obtain ⟨rfl, rfl⟩ := Prod.mk.inj (Option.some.inj read)
      exact .inr ⟨rfl, rfl⟩
    · split at read
      · contradiction
      · obtain ⟨rfl, rfl⟩ := Prod.mk.inj (Option.some.inj read)
        exact .inl (Nat.lt_succ_self _)

theorem length_name? (read : name? fuel text = some name) : name.length ≤ text.length := by
  induction fuel generalizing text name with
  | zero => contradiction
  | succ fuel ih =>
      cases text with
      | nil =>
          obtain rfl := Option.some.inj read
          exact Nat.le_refl 0
      | cons c rest =>
          rw [name?] at read
          split at read
          · obtain ⟨others, later, rfl⟩ := Option.map_eq_some_iff.mp read
            exact Nat.succ_le_succ (ih later)
          · split at read
            · obtain ⟨⟨d, behind⟩, escaped, shape⟩ := Option.bind_eq_some_iff.mp read
              obtain ⟨others, later, rfl⟩ := Option.map_eq_some_iff.mp shape
              have short := ih later
              rw [List.length_cons, List.length_cons]
              cases length_escape? escaped with
              | inl fewer => omega
              | inr ended =>
                  obtain ⟨rfl, rfl⟩ := ended
                  unfold escape? at escaped
                  obtain rfl := (Prod.mk.inj (Option.some.inj escaped)).2
                  omega
            · contradiction

/-- A name is written as it is exactly if each of its characters stands for itself. -/
theorem name?_eq_self (enough : text.length < fuel) :
    name? fuel text = some text ↔ ∀ c ∈ text, isPart c = true := by
  induction fuel generalizing text with
  | zero => exact absurd enough (Nat.not_lt_zero _)
  | succ fuel ih =>
      cases text with
      | nil => exact iff_of_true rfl fun c member => by contradiction
      | cons c rest =>
          rw [List.forall_mem_cons, ← ih (Nat.lt_of_succ_lt_succ enough), name?]
          split
          · rename_i part
            simp [part]
          · rename_i strange
            refine iff_of_false ?_ fun all => strange all.1
            intro read
            split at read
            · rename_i backslash
              obtain ⟨⟨d, behind⟩, escaped, shape⟩ := Option.bind_eq_some_iff.mp read
              obtain ⟨others, later, same⟩ := Option.map_eq_some_iff.mp shape
              obtain ⟨own, rfl⟩ := List.cons.inj same
              have short := length_name? later
              -- An escape is longer than the character it stands for, except at the end.
              cases length_escape? escaped with
              | inl fewer => omega
              | inr ended =>
                  rw [own, backslash] at ended
                  exact absurd ended.2 (by decide)
            · contradiction

theorem id?_eq_self (starts : startsName text = true) :
    id? ('#' :: text) = some text ↔ ∀ c ∈ text, isPart c = true := by
  rw [id?, if_pos starts]
  exact name?_eq_self (Nat.lt_succ_self _)

end Selector

/-! ## Markup -/

namespace Markup

inductive Place where
  | content
  | tag (word : List Char)
  | value (name taken : List Char)
deriving DecidableEq

/-- Reads tags whose values stand in double quotes. -/
def step : Place → Char → Place
  | .content, c => if c = '<' then .tag [] else .content
  | .tag word, c =>
    if c = '>' then .content
    else if c = '"' then .value word []
    else if c = '=' then .tag word
    else .tag (if c = ' ' then [] else word ++ [c])
  | .value name taken, c => if c = '"' then .tag [] else .value name (taken ++ [c])

/-- The attribute that ends with a character. -/
def ended? : Place → Char → Option (List Char × List Char)
  | .value name taken, c => if c = '"' then some (name, taken) else none
  | _, _ => none

/-- The attributes that end in a text. A value is given as it is written; without any ampersand it
stands for itself. -/
def attributes : Place → List Char → List (List Char × List Char)
  | _, [] => []
  | place, c :: rest => (ended? place c).toList ++ attributes (step place c) rest

def after (place : Place) (text : List Char) : Place := text.foldl step place

/-- The ids of all elements in a markup. -/
def ids (markup : List Char) : List (List Char) :=
  (attributes .content markup).filterMap fun (name, value) =>
    if name = ['i', 'd'] then some value else none

theorem attributes_append (place : Place) (front rest : List Char) :
    attributes place (front ++ rest) =
      attributes place front ++ attributes (after place front) rest := by
  induction front generalizing place with
  | nil => rfl
  | cons c others ih =>
      rw [List.cons_append, attributes, ih, attributes, List.append_assoc]
      rfl

theorem attributes_content (absent : '<' ∉ front) :
    attributes .content front = [] ∧ after .content front = .content := by
  induction front with
  | nil => exact ⟨rfl, rfl⟩
  | cons c others ih =>
      have other : c ≠ '<' := by
        rintro rfl
        exact absent List.mem_cons_self
      have stays : step .content c = .content := if_neg other
      obtain ⟨none, content⟩ := ih fun member => absent (List.mem_cons_of_mem c member)
      rw [attributes, after, List.foldl_cons, stays]
      exact ⟨none, content⟩

theorem attributes_value (name taken : List Char) (absent : '"' ∉ front) :
    attributes (.value name taken) front = [] ∧
      after (.value name taken) front = .value name (taken ++ front) := by
  induction front generalizing taken with
  | nil => exact ⟨rfl, by rw [List.append_nil]; rfl⟩
  | cons c others ih =>
      have other : c ≠ '"' := by
        rintro rfl
        exact absent List.mem_cons_self
      have stays : step (.value name taken) c = .value name (taken ++ [c]) := if_neg other
      have open_ : ended? (.value name taken) c = none := if_neg other
      obtain ⟨none, value⟩ := ih (taken ++ [c]) fun member =>
        absent (List.mem_cons_of_mem c member)
      rw [List.append_assoc, List.singleton_append] at value
      rw [attributes, after, List.foldl_cons, stays, open_]
      exact ⟨none, value⟩

end Markup

end Browser

end LinkedViews
