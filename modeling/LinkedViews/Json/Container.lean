import LinkedViews.Json.Lexeme

/-!
Reading lists and objects item by item, and passing over values of which nothing is kept.
-/

namespace LinkedViews.Json.Reader

def nextItem (first : Bool) : Reader Bool := do
  match ← peekToken with
  | none => failHere .endInList
  | some ']' => return false
  | some c =>
    if first then return true
    else if c = ',' then do
      advance
      match ← peekToken with
      | none => failHere .endInValue
      | some ']' => failAtNext .trailingComma
      | some _ => return true
    else failAtNext .listCommaOrEndExpected

/-- Moves to the quote of the next name in an object, if there is one. -/
def nextName (first : Bool) : Reader Bool := do
  match ← peekToken with
  | none => failHere .endInObject
  | some '\x7d' => return false
  | some c =>
    if first then
      if c = '"' then return true else failAtNext .nameNotText
    else if c = ',' then do
      advance
      match ← peekToken with
      | none => failHere .endInValue
      | some '"' => return true
      | some '\x7d' => failAtNext .trailingComma
      | some _ => failAtNext .nameNotText
    else failAtNext .objectCommaOrEndExpected

def colon : Reader Unit := do
  match ← peekToken with
  | none => failHere .endInObject
  | some ':' => advance
  | some _ => failAtNext .colonExpected

/-- Where a list is left after its items have been read, and what is wrong there, if anything. -/
def listEnd (cursor : Cursor) : Cursor × Option Flaw :=
  let here := skipSpaces cursor.rest cursor.place
  match here.rest with
  | [] => (here, some .endInList)
  | ']' :: _ => (here.next, none)
  | ',' :: rest =>
    let behind := skipSpaces rest here.next.place
    (behind, some (if behind.rest.head? = some ']' then .trailingComma else .trailingCharacters))
  | _ => (here, some .trailingCharacters)

/-- Where an object is left after its members have been read, and what is wrong there. -/
def objectEnd (cursor : Cursor) : Cursor × Option Flaw :=
  let here := skipSpaces cursor.rest cursor.place
  match here.rest with
  | [] => (here, some .endInObject)
  | '\x7d' :: _ => (here.next, none)
  | ',' :: _ => (here, some .trailingComma)
  | _ => (here, some .trailingCharacters)

/-- Reads the parts of a container from behind its opening bracket and leaves it. A mismatch among
the parts gets the place where the container has been left. -/
def within {α : Type} (leave : Cursor → Cursor × Option Flaw) (parts : Reader α) : Reader α :=
  advance.andThen fun _ cursor =>
    match parts cursor with
    | .failed fault => .failed fault
    | .refused reason inner => mismatchHere reason (leave inner).1
    | .done value inner =>
      match leave inner with
      | (behind, none) => .done value behind
      | (behind, some flaw) => failAtNext flaw behind

/-- The items of a list, at most `fuel` of them. -/
def itemsWithin {α : Type} (item : Reader α) : Nat → Bool → Reader (List α)
  | 0, _ => failHere .endInList
  | fuel + 1, first => do
    if ← nextItem first then do
      let value ← item
      let rest ← itemsWithin item fuel false
      return value :: rest
    else return []

/-- A list from its opening bracket on. Every item takes up a part of the text, so there are fewer
items than characters. -/
def list {α : Type} (item : Reader α) : Reader (List α) :=
  within listEnd fun cursor => itemsWithin item (cursor.rest.length + 1) true cursor

def name : Reader String := do advance; textRest

def membersWithin {α : Type} (value : Reader α) : Nat → Bool → Reader (List (String × α))
  | 0, _ => failHere .endInObject
  | fuel + 1, first => do
    if ← nextName first then do
      let name ← name
      colon
      let member ← value
      let rest ← membersWithin value fuel false
      return (name, member) :: rest
    else return []

def object {α : Type} (value : Reader α) : Reader (List (String × α)) :=
  within objectEnd fun cursor => membersWithin value (cursor.rest.length + 1) true cursor

def skipNumber : Reader Unit := do
  let _ ← numberParts .invalidNumber

mutual

def skipWithin : Nat → Reader Unit
  | 0 => failHere .endInValue
  | fuel + 1 => do
    match ← peekToken with
    | none => failHere .endInValue
    | some 'n' => do advance; word ['u', 'l', 'l']
    | some 't' => do advance; word ['r', 'u', 'e']
    | some 'f' => do advance; word ['a', 'l', 's', 'e']
    | some '-' => do advance; skipNumber
    | some '"' => do advance; skipTextRest
    | some '[' => do advance; skipItems fuel true
    | some '\x7b' => do advance; skipMembers fuel true
    | some c => if c.isDigit then skipNumber else failAtNext .valueExpected

def skipItems : Nat → Bool → Reader Unit
  | 0, _ => failHere .endInList
  | fuel + 1, first => do
    match ← peekToken with
    | none => failHere .endInList
    | some ']' => advance
    | some c =>
      if first then do skipWithin fuel; skipItems fuel false
      else if c = ',' then do advance; skipWithin fuel; skipItems fuel false
      else failAtNext .listCommaOrEndExpected

def skipMembers : Nat → Bool → Reader Unit
  | 0, _ => failHere .endInObject
  | fuel + 1, first => do
    match ← peekToken with
    | none => failHere .endInObject
    | some '\x7d' => advance
    | some c =>
      if first then skipMember fuel
      else if c = ',' then do advance; skipMember fuel
      else failAtNext .objectCommaOrEndExpected

/-- Passes over a member of an object, and over what follows it up to the end of the object. -/
def skipMember : Nat → Reader Unit
  | 0 => failHere .endInObject
  | fuel + 1 => do
    match ← peekToken with
    | none => failHere .endInObject
    | some '"' => do advance; skipTextRest; colon; skipWithin fuel; skipMembers fuel false
    | some _ => failAtNext .nameNotText

end

/-- Passes over a value of any depth. Each step takes up a character or is followed by one that
does, so three steps for each character are enough. -/
def skip : Reader Unit := fun cursor => skipWithin (3 * cursor.rest.length + 3) cursor

end LinkedViews.Json.Reader
