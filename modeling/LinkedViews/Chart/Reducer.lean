/-!
What a chart shows of the records that share a key: nothing but the key, their number, or the sum
or mean of one field; numbers and sums also as totals over all keys up to this one.
-/

namespace LinkedViews

inductive ReducerKind where
  | none
  | count
  | sum
  | mean
  | cumulativeSum
  | cumulativeCount
deriving DecidableEq, Repr

namespace ReducerKind

def all : List ReducerKind := [none, count, sum, mean, cumulativeSum, cumulativeCount]

def name : ReducerKind → String
  | none => "None"
  | count => "Count"
  | sum => "Sum"
  | mean => "Mean"
  | cumulativeSum => "CumulativeSum"
  | cumulativeCount => "CumulativeCount"

def ofName? (name : String) : Option ReducerKind := all.find? fun kind => kind.name = name

/-- Whether the reducer aggregates the values of a field. -/
def usesField : ReducerKind → Bool
  | sum => true
  | mean => true
  | cumulativeSum => true
  | _ => false

end ReducerKind

inductive Reducer where
  | none
  | count
  | sum (field : String)
  | mean (field : String)
  | cumulativeCount
  | cumulativeSum (field : String)
deriving DecidableEq, Repr

namespace Reducer

def kind : Reducer → ReducerKind
  | none => .none
  | count => .count
  | sum _ => .sum
  | mean _ => .mean
  | cumulativeCount => .cumulativeCount
  | cumulativeSum _ => .cumulativeSum

def field? : Reducer → Option String
  | sum field => some field
  | mean field => some field
  | cumulativeSum field => some field
  | _ => Option.none

/-- The reducer of a kind over a field. A field that the kind does not need is left aside; one that
it needs must be there. -/
def ofKind? : ReducerKind → Option String → Option Reducer
  | .none, _ => some none
  | .count, _ => some count
  | .cumulativeCount, _ => some cumulativeCount
  | .sum, field => field.map sum
  | .mean, field => field.map mean
  | .cumulativeSum, field => field.map cumulativeSum

end Reducer

end LinkedViews
