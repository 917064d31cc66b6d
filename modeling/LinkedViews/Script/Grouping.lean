import LinkedViews.Chart.Reducer
import LinkedViews.Script.Piece

/-!
How the records of one key are reduced to the value of their group, and how a chart reads that
value back.
-/

namespace LinkedViews

inductive Grouping where
  | keys
  | count
  | sum (field : String)
  | mean (field : String)
  /-- Totals of another grouping over all keys up to each one. -/
  | cumulative (inner : Grouping)
deriving DecidableEq, Repr

/-- Where a chart finds the value of a group: where it always does, in the value itself, or in the
mean that the value keeps. -/
inductive ValueAccess where
  | standard
  | value
  | average
deriving DecidableEq, Repr

namespace Grouping

def ofReducer : Reducer → Grouping
  | .none => keys
  | .count => count
  | .sum field => sum field
  | .mean field => mean field
  | .cumulativeCount => cumulative count
  | .cumulativeSum field => cumulative (sum field)

def field? : Grouping → Option String
  | keys => none
  | count => none
  | sum field => some field
  | mean field => some field
  | cumulative inner => inner.field?

/-- The function by which a record changes the state of a mean. -/
def meanStep (count sum field : String) : Script :=
  Script.codeLines
      ["    function(p, v) \x7b",
        "        " ++ count ++ "p.count;",
        "        p.sums " ++ sum ++ " +"] ++
    Script.access "v" field ++
    Script.codeLines
      [";",
        "        p.averages = (p.count === 0) ? 0 : p.sums / p.count;",
        "        return p;",
        "    \x7d,\n"]

def expression : Grouping → Script
  | keys => Script.code "dim.group()"
  | count => Script.code "dim.group().reduceCount()"
  | sum field =>
    Script.code "dim.group().reduceSum(" ++
      Script.function "d" (Script.code "+" ++ Script.access "d" field) ++ Script.code ")"
  | mean field =>
    Script.code "dim.group().reduce(\n" ++ meanStep "++" "+=" field ++ meanStep "--" "-=" field ++
      Script.codeLines
        ["    function() \x7b",
          "        return \x7bcount: 0, sums: 0, averages: 0\x7d;",
          "    \x7d",
          ")"]
  | cumulative inner => inner.expression

/-- An object whose groups are the running totals of another one. -/
def totals : Script :=
  Script.codeLines
    [";",
      "var group = \x7b",
      "    all: function() \x7b",
      "        var cumulate = 0;",
      "        var g = [];",
      "        _group.all().forEach(function(d) \x7b",
      "            cumulate += d.value;",
      "            g.push(\x7bkey: d.key, value: cumulate\x7d);",
      "        \x7d);",
      "        return g;",
      "    \x7d",
      "\x7d;"]

def script : Grouping → Script
  | cumulative inner => Script.code "var _group = " ++ inner.expression ++ totals
  | grouping => Script.code "var group = " ++ grouping.expression ++ Script.code ";"

end Grouping

namespace ValueAccess

def ofReducer : Reducer → ValueAccess
  | .mean _ => average
  | .cumulativeCount => value
  | .cumulativeSum _ => value
  | _ => standard

/-- The setting of a chart that reads its values in this way; the standard way needs none. -/
def setting? : ValueAccess → Option Script
  | standard => none
  | value =>
    some (Script.code ".valueAccessor(" ++ Script.function "p" (Script.code "p.value") ++
      Script.code ")")
  | average =>
    some (Script.code ".valueAccessor(" ++ Script.function "p" (Script.code "p.value.averages") ++
      Script.code ")")

end ValueAccess

end LinkedViews
