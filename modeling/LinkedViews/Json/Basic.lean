import LinkedViews.Number.Numeral

/-!
JSON values and their two written forms, one without any white space and one on indented lines.
An object is the list of its members in order; a name may occur in it more than once.
-/

namespace LinkedViews

inductive Json where
  | null
  | boolean (value : Bool)
  | integer (value : Int)
  | real (value : Binary64)
  | text (value : String)
  | array (items : List Json)
  | object (members : List (String × Json))
deriving Inhabited

namespace Json

/-- The letter that stands for a character behind a backslash. -/
def letter? : Char → Option Char
  | '"' => some '"'
  | '\\' => some '\\'
  | '\x08' => some 'b'
  | '\x0c' => some 'f'
  | '\n' => some 'n'
  | '\r' => some 'r'
  | '\t' => some 't'
  | _ => none

/-- A character inside a string: only quotes, backslashes and controls are written differently. -/
def escapeChar (c : Char) : List Char :=
  match letter? c with
  | some letter => ['\\', letter]
  | none =>
    if c.toNat < 0x20 then '\\' :: 'u' :: Numeral.padLeft 4 (Numeral.hexDigits c.toNat) else [c]

def quoteChars (text : List Char) : List Char := '"' :: text.flatMap escapeChar ++ ['"']

def quote (text : String) : String := String.ofList (quoteChars text.toList)

/-- A value that is no container. A number without a finite value is written as null. -/
def scalarChars : Json → List Char
  | .boolean true => ['t', 'r', 'u', 'e']
  | .boolean false => ['f', 'a', 'l', 's', 'e']
  | .integer value => (Numeral.ofInt value).toList
  | .real value => if value.isFinite then (Numeral.json value).toList else ['n', 'u', 'l', 'l']
  | .text value => quoteChars value.toList
  | _ => ['n', 'u', 'l', 'l']

def separated (separator : List Char) : List (List Char) → List Char
  | [] => []
  | [item] => item
  | item :: rest => item ++ separator ++ separated separator rest

mutual

def compactChars : Json → List Char
  | .array items => '[' :: separated [','] (compactItems items) ++ [']']
  | .object members => '\x7b' :: separated [','] (compactMembers members) ++ ['\x7d']
  | .null => scalarChars .null
  | .boolean value => scalarChars (.boolean value)
  | .integer value => scalarChars (.integer value)
  | .real value => scalarChars (.real value)
  | .text value => scalarChars (.text value)

def compactItems : List Json → List (List Char)
  | [] => []
  | item :: rest => compactChars item :: compactItems rest

def compactMembers : List (String × Json) → List (List Char)
  | [] => []
  | member :: rest => compactMember member :: compactMembers rest

def compactMember : String × Json → List Char
  | (name, value) => quoteChars name.toList ++ ':' :: compactChars value

end

def compact (value : Json) : String := String.ofList (compactChars value)

/-- A line ending and the margin of a nesting depth, two spaces for each level. -/
def newline (depth : Nat) : List Char := '\n' :: List.replicate (2 * depth) ' '

/-- A container with each item on a line of its own; an empty one stays on its line. -/
def spread (depth : Nat) (opening closing : Char) (items : List (List Char)) : List Char :=
  if items = [] then [opening, closing]
  else
    opening :: newline (depth + 1) ++ separated (',' :: newline (depth + 1)) items ++
      newline depth ++ [closing]

mutual

/-- The form on indented lines, for a value that begins at the given depth. -/
def prettyChars (depth : Nat) : Json → List Char
  | .array items => spread depth '[' ']' (prettyItems (depth + 1) items)
  | .object members => spread depth '\x7b' '\x7d' (prettyMembers (depth + 1) members)
  | .null => scalarChars .null
  | .boolean value => scalarChars (.boolean value)
  | .integer value => scalarChars (.integer value)
  | .real value => scalarChars (.real value)
  | .text value => scalarChars (.text value)

def prettyItems (depth : Nat) : List Json → List (List Char)
  | [] => []
  | item :: rest => prettyChars depth item :: prettyItems depth rest

def prettyMembers (depth : Nat) : List (String × Json) → List (List Char)
  | [] => []
  | member :: rest => prettyMember depth member :: prettyMembers depth rest

def prettyMember (depth : Nat) : String × Json → List Char
  | (name, value) => quoteChars name.toList ++ ':' :: ' ' :: prettyChars depth value

end

def pretty (value : Json) : String := String.ofList (prettyChars 0 value)

end Json

end LinkedViews
