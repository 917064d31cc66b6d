import LinkedViews.Script.Piece

/-!
What the records of a chart are keyed by: the value of a field, its number, or two numbers and a
value together.
-/

namespace LinkedViews

inductive Projection where
  | raw (field : String)
  | numeric (field : String)
  | triple (x y color : String)
deriving DecidableEq, Repr

namespace Projection

def script : Projection → Script
  | raw field => Script.function "d" (Script.access "d" field)
  | numeric field => Script.function "d" (Script.code "+" ++ Script.access "d" field)
  | triple x y color =>
    Script.function "d"
      (Script.code "[+" ++ Script.access "d" x ++ Script.code ", +" ++ Script.access "d" y ++
        Script.code ", " ++ Script.access "d" color ++ Script.code "]")

end Projection

end LinkedViews
