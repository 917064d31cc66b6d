import LinkedViews.Text.Lines

/-!
Fragments: pieces of script that stand on their own, each in a scope that hides its variables from
the others. A fragment with an element key has a container on the page, under an id of its own.
-/

namespace LinkedViews

structure Fragment where
  label : String
  elementKey : Option String
  body : String
deriving DecidableEq, Repr

namespace Fragment

/-- The id of the container of an element on a page with a display id. -/
def elementIdOf (displayId key : String) : String := "dc-" ++ displayId ++ "-chart-" ++ key

def elementId (fragment : Fragment) (displayId : String) : Option String :=
  fragment.elementKey.map (elementIdOf displayId)

def onOneLine (text : String) : String :=
  String.ofList (text.toList.map fun c => if c = '\n' ∨ c = '\r' then ' ' else c)

/-- The four spaces by which the body of a scope is moved in. -/
def margin : String := "    "

/-- The fragment as it stands in a script: a comment, and the body in a scope of its own. -/
def text (fragment : Fragment) : String :=
  "// " ++ onOneLine fragment.label ++ "\n(function() \x7b\n" ++
    Text.indent margin fragment.body ++ "\n\x7d)();"

end Fragment

end LinkedViews
