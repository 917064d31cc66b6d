import LinkedViews.Json.Script

/-!
Generated script as a list of pieces. Whatever comes from the data or the configuration stands in
string literals of its own, so it cannot run into the code around it.
-/

namespace LinkedViews

inductive Piece where
  | code (text : String)
  /-- A string literal that stands for a text. -/
  | literal (text : String)
deriving DecidableEq, Repr

def Piece.text : Piece → String
  | code text => text
  | literal text => Json.literal text

abbrev Script := List Piece

namespace Script

def text (script : Script) : String := String.join (script.map Piece.text)

def code (text : String) : Script := [.code text]

def codeLines (lines : List String) : Script := code (String.intercalate "\n" lines)

def separated (separator : String) : List Script → Script
  | [] => []
  | [script] => script
  | script :: rest => script ++ code separator ++ separated separator rest

/-- A field of a record that a name is bound to. -/
def access (record field : String) : Script :=
  [.code record, .code "[", .literal field, .code "]"]

/-- A function of one argument that only returns a value. -/
def function (argument : String) (value : Script) : Script :=
  code ("function(" ++ argument ++ ") \x7b return ") ++ value ++ code "; \x7d"

end Script

end LinkedViews
