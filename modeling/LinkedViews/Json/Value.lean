import LinkedViews.Json.Basic
import LinkedViews.Json.Container

/-!
Reading JSON values: any value, or one of an expected kind. Containers that are read, rather than
passed over, lie in each other up to a fixed depth.
-/

namespace LinkedViews.Json

def maximalDepth : Nat := 127

def Found.toJson : Found → Json
  | .null => .null
  | .boolean value => .boolean value
  | .integer value => .integer value
  | .real value => .real value
  | .text value => .text value
  | .list => .array []
  | .object => .object []

namespace Reader

def scalar : Reader Found := do
  match ← peekToken with
  | none => failHere .endInValue
  | some 'n' => do advance; word ['u', 'l', 'l']; return .null
  | some 't' => do advance; word ['r', 'u', 'e']; return .boolean true
  | some 'f' => do advance; word ['a', 'l', 's', 'e']; return .boolean false
  | some '"' => do advance; return .text (← textRest)
  | some c => if c = '-' ∨ c.isDigit then number else failAtNext .valueExpected

/-- What stands next; of a container only the kind, and the reader stays before it. -/
def found : Reader Found := do
  match ← peekToken with
  | some '[' => return .list
  | some '\x7b' => return .object
  | _ => scalar

/-- Refuses what stands next, whatever it is. -/
def unexpected {α : Type} (expected : String) : Reader α := do
  let found ← found
  mismatchHere (.kind found expected)

/-- A value whose containers are read by the given readers. -/
def valueBy (array object : Reader Json) : Reader Json := do
  match ← peekToken with
  | some '[' => array
  | some '\x7b' => object
  | _ => return (← scalar).toJson

def value : Nat → Reader Json
  | 0 => valueBy (failAtNext .nestedTooDeep) (failAtNext .nestedTooDeep)
  | depth + 1 => valueBy (do return .array (← list (value depth)))
      (do return .object (← object (value depth)))

def text : Reader String := do
  match ← peekToken with
  | none => failHere .endInValue
  | some '"' => do advance; textRest
  | some _ => unexpected "a string"

/-- A whole number of 32 bits without a sign. -/
def word32 : Reader UInt32 := do
  match ← found with
  | .integer value =>
    if 0 ≤ value ∧ value.toNat < UInt32.size then return UInt32.ofNat value.toNat
    else mismatchHere (.value value "u32")
  | found => mismatchHere (.kind found "u32")

def optional {α : Type} (reader : Reader α) : Reader (Option α) := do
  match ← peekToken with
  | some 'n' => do advance; word ['u', 'l', 'l']; return none
  | _ => return some (← reader)

/-- A list of items, each of which may have one level of depth less. -/
def listOf {α : Type} (item : Nat → Reader α) (depth : Nat) : Reader (List α) := do
  match ← peekToken with
  | none => failHere .endInValue
  | some '[' => match depth with
    | 0 => failAtNext .nestedTooDeep
    | inner + 1 => list (item inner)
  | some _ => unexpected "a sequence"

end Reader

/-- What a reader makes of a whole text; behind the value only white space may follow. -/
def ofText {α : Type} (reader : Reader α) (text : String) : Except Fault α :=
  let whole := reader.andThen fun value => do
    match ← Reader.peekToken with
    | none => return value
    | some _ => Reader.failAtNext .trailingCharacters
  match whole (Cursor.start text) with
  | .done value _ => .ok value
  | .failed fault => .error fault
  | .refused reason cursor => .error (.mismatch reason cursor.place)

end LinkedViews.Json
