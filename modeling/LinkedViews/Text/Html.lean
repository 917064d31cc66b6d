/-!
Text inside a page: the five characters with a meaning in markup are written as entities, so the
result can stand in element content and in attribute values of either quote.
-/

namespace LinkedViews.Text.Html

/-- The entity that stands for a character, without its ampersand and semicolon. -/
def entity? : Char → Option String
  | '&' => some "amp"
  | '<' => some "lt"
  | '>' => some "gt"
  | '"' => some "quot"
  | '\'' => some "#39"
  | _ => none

def escapeChar (c : Char) : List Char :=
  match entity? c with
  | some name => '&' :: name.toList ++ [';']
  | none => [c]

def escapeChars (text : List Char) : List Char := text.flatMap escapeChar

def escape (text : String) : String := String.ofList (escapeChars text.toList)

end LinkedViews.Text.Html
