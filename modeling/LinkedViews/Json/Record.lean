import LinkedViews.Json.Value

/-!
Records written in JSON. A record is an object whose members are its fields, in any order, or a
list of its fields in the order in which they are declared. Members that are no fields are passed
over. A field that is not required keeps the value it has in the blank record.
-/

namespace LinkedViews.Json

structure Field (σ : Type) where
  name : String
  required : Bool
  /-- Reads the field's value into a record; the number is the depth left for containers in it. -/
  read : Nat → σ → Reader σ

structure Record (σ : Type) where
  name : String
  blank : σ
  fields : List (Field σ)

namespace Record

def ofItems {σ : Type} (record : Record σ) (depth : Nat) :
    Nat → List (Field σ) → σ → Reader σ
  | _, [], value => pure value
  | index, field :: rest, value => do
    if ← Reader.nextItem (index = 0) then do
      let value ← field.read depth value
      record.ofItems depth (index + 1) rest value
    else if field.required then
      Reader.refuse (.tooShort index record.name record.fields.length)
    else record.ofItems depth (index + 1) rest value

/-- The members of an object, at most `fuel` of them; `seen` are the fields that have been met. -/
def ofMembers {σ : Type} (record : Record σ) (depth : Nat) :
    Nat → List String → Bool → σ → Reader σ
  | 0, _, _, _ => Reader.failHere .endInObject
  | fuel + 1, seen, first, value => do
    if ← Reader.nextName first then do
      let name ← Reader.name
      match record.fields.find? fun field => field.name = name with
      | none => do
        Reader.colon
        Reader.skip
        record.ofMembers depth fuel seen false value
      | some field =>
        if name ∈ seen then Reader.refuse (.repeated name)
        else do
          Reader.colon
          let value ← field.read depth value
          record.ofMembers depth fuel (name :: seen) false value
    else
      match record.fields.find? fun field => field.required && !seen.contains field.name with
      | some field => Reader.refuse (.missing field.name)
      | none => return value

/-- A record in either form, in which at most `depth` containers lie in each other. -/
def reader {σ : Type} (record : Record σ) (depth : Nat) : Reader σ := do
  match ← Reader.peekToken with
  | none => Reader.failHere .endInValue
  | some '[' => match depth with
    | 0 => Reader.failAtNext .nestedTooDeep
    | inner + 1 => Reader.within Reader.listEnd (record.ofItems inner 0 record.fields record.blank)
  | some '\x7b' => match depth with
    | 0 => Reader.failAtNext .nestedTooDeep
    | inner + 1 => Reader.within Reader.objectEnd fun cursor =>
        record.ofMembers inner (cursor.rest.length + 1) [] true record.blank cursor
  | some _ => Reader.unexpected ("struct " ++ record.name)

end Record

end LinkedViews.Json
