import LinkedViews.Json.Basic

/-!
JSON text inside a script element of a page. An element ends at its closing tag wherever that
occurs, so a backslash is put into every `</`; inside a string the backslash changes nothing.
-/

namespace LinkedViews.Json

def guardTags : List Char → List Char
  | '<' :: '/' :: rest => '<' :: '\\' :: '/' :: guardTags rest
  | c :: rest => c :: guardTags rest
  | [] => []

def scriptText (value : Json) : String := String.ofList (guardTags (compactChars value))

/-- A text as a literal that can stand in a script element. -/
def literal (text : String) : String := scriptText (.text text)

end LinkedViews.Json
