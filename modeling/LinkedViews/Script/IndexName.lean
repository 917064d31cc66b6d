/-!
The name of the filtering index that all charts of a dashboard share. It is a variable of the
generated script, so it is an identifier, no word of the script language, and none of the names
that the script binds itself.
-/

namespace LinkedViews

namespace IndexName

/-- Names that the generated script binds; an index of one of them would be hidden. -/
def reservedNames : List String :=
  ["d3", "dc", "crossfilter", "element", "crossfilterData", "displayId", "all", "count", "chartId",
    "dim", "group", "_group", "chart", "min", "max"]

/-- Words that cannot name a variable. -/
def keywords : List String :=
  ["break", "case", "catch", "class", "const", "continue", "debugger", "default", "delete", "do",
    "else", "enum", "export", "extends", "false", "finally", "for", "function", "if", "implements",
    "import", "in", "instanceof", "interface", "let", "new", "null", "package", "private",
    "protected", "public", "return", "static", "super", "switch", "this", "throw", "true", "try",
    "typeof", "var", "void", "while", "with", "yield", "await"]

def isStart (c : Char) : Bool := c.isAlpha || c = '_' || c = '$'

def isPart (c : Char) : Bool := c.isAlphanum || c = '_' || c = '$'

def isIdentifier : List Char → Bool
  | [] => false
  | c :: rest => isStart c && rest.all isPart

/-- Whether a text can name an index. Letters and digits are those of ASCII. -/
def isValid (name : String) : Bool :=
  isIdentifier name.toList && !reservedNames.contains name && !keywords.contains name

end IndexName

structure IndexName where
  text : String
  valid : IndexName.isValid text = true
deriving DecidableEq

namespace IndexName

def ofText? (text : String) : Option IndexName :=
  if valid : isValid text = true then some ⟨text, valid⟩ else none

def standardText : String := "cf"

def standard : IndexName := ⟨standardText, by decide⟩

instance : Inhabited IndexName := ⟨standard⟩

end IndexName

end LinkedViews
