/-!
Texts as lines. A line ends at a line feed, and a carriage return directly before that line feed
belongs to the ending; a line feed at the end of the text opens no further line.
-/

namespace LinkedViews.Text

def lines : List Char → List (List Char)
  | [] => []
  | '\n' :: rest => [] :: lines rest
  | '\r' :: '\n' :: rest => [] :: lines rest
  | c :: rest => match lines rest with
    | [] => [[c]]
    | line :: more => (c :: line) :: more

/-- Puts a margin before a line; an empty line stays empty. -/
def indentLine (margin line : List Char) : List Char := if line = [] then [] else margin ++ line

/-- Puts a margin before every line that is not empty, and drops the last line ending. -/
def indent (margin text : String) : String :=
  String.ofList (['\n'].intercalate ((lines text.toList).map (indentLine margin.toList)))

/-- Fills a text up with spaces to a least width, counted in characters. -/
def padRight (width : Nat) (text : String) : String :=
  String.ofList (text.toList ++ List.replicate (width - text.length) ' ')

def ofLines (lines : List String) : String := String.join (lines.map fun line => line ++ "\n")

end LinkedViews.Text
