import LinkedViews.Preview.Key
import LinkedViews.Script.Grouping

/-!
The groups of a chart. The rows of a table are taken one after the other into buckets, one bucket
for each key, and the buckets are kept in ascending order of their keys.
-/

namespace LinkedViews

/-- The mean of the values that some steps have left. Each step changes the count by one, so it is
an integer of 64 bits in any run of fewer than 2⁶³ steps, and no run is longer. -/
structure RunningMean where
  count : Int
  sum : Binary64
  average : Binary64
deriving DecidableEq, Repr

namespace RunningMean

/-- The state of a count and a sum; the mean of nothing is zero. -/
def ofSum (count : Int) (sum : Binary64) : RunningMean :=
  ⟨count, sum, if count = 0 then .zero else sum.div (.ofInt count)⟩

def empty : RunningMean := ⟨0, .zero, .zero⟩

def add (state : RunningMean) (value : Binary64) : RunningMean :=
  ofSum (state.count + 1) (state.sum.add value)

def remove (state : RunningMean) (value : Binary64) : RunningMean :=
  ofSum (state.count - 1) (state.sum.sub value)

end RunningMean

/-- What is kept for a bucket. Records are counted one by one, and as no table holds 2⁶³ rows, their
count is an integer of 64 bits. -/
inductive Aggregate where
  | count (records : Int)
  | sum (total : Binary64)
  | mean (state : RunningMean)
deriving DecidableEq, Repr

namespace Aggregate

def empty : Grouping → Aggregate
  | .keys => count 0
  | .count => count 0
  | .sum _ => sum .zero
  | .mean _ => mean .empty
  | .cumulative inner => empty inner

/-- Takes a record into account, given the value of its reduced field. -/
def add (state : Aggregate) (value : Binary64) : Aggregate :=
  match state with
  | count records => count (records + 1)
  | sum total => sum (total.add value)
  | mean state => mean (state.add value)

def shown : Aggregate → Binary64
  | count records => .ofInt records
  | sum total => total
  | mean state => state.average

end Aggregate

structure Bucket where
  key : Key
  value : Binary64
deriving Repr

namespace Buckets

/-- Adds a value to the bucket of a key, which is made at its place if there is none. -/
def insert (empty : Aggregate) (key : Key) (value : Binary64) :
    List (Key × Aggregate) → List (Key × Aggregate)
  | [] => [(key, empty.add value)]
  | (other, state) :: rest =>
    match key.compare other with
    | .lt => (key, empty.add value) :: (other, state) :: rest
    | .eq => (other, state.add value) :: rest
    | .gt => (other, state) :: insert empty key value rest

def entry (projection : Projection) (grouping : Grouping) (table : Table) (row : List Cell) :
    Key × Binary64 :=
  (projection.key table row,
    (grouping.field?.map fun field => (table.cellOf row field).toNumber).getD .zero)

/-- The buckets of keys and values that come one after the other. -/
def collect (empty : Aggregate) (entries : List (Key × Binary64)) : List (Key × Aggregate) :=
  entries.foldl (fun buckets entry => insert empty entry.1 entry.2 buckets) []

/-- Every value replaced by the total up to it, on top of a total so far. -/
def totalsFrom (total : Binary64) : List Bucket → List Bucket
  | [] => []
  | bucket :: rest =>
    let total := total.add bucket.value
    ⟨bucket.key, total⟩ :: totalsFrom total rest

def runningTotals (buckets : List Bucket) : List Bucket := totalsFrom .zero buckets

def ofTable (projection : Projection) (grouping : Grouping) (table : Table) : List Bucket :=
  let states := collect (.empty grouping) (table.rows.map (entry projection grouping table))
  let buckets := states.map fun (key, state) => Bucket.mk key state.shown
  match grouping with
  | .cumulative _ => runningTotals buckets
  | _ => buckets

end Buckets

end LinkedViews
