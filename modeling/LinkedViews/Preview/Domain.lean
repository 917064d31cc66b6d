import LinkedViews.Preview.Key

/-!
The bounds of a chart: what a field holds in the records with the least and the greatest key. Of
records with equal keys the first counts at the lower end and the last at the upper.
-/

namespace LinkedViews

structure Domain where
  lower : Cell
  /-- One above the greatest record. -/
  upper : Cell
deriving DecidableEq, Repr

namespace Domain

/-- The first row that no other row is less than. -/
def leastRow (key : List Cell → Key) (best : List Cell) : List (List Cell) → List Cell
  | [] => best
  | row :: rest => leastRow key (if (key row).compare (key best) = .lt then row else best) rest

/-- The last row that is less than no other row. -/
def greatestRow (key : List Cell → Key) (best : List Cell) : List (List Cell) → List Cell
  | [] => best
  | row :: rest => greatestRow key (if (key row).compare (key best) = .lt then best else row) rest

def ofTable? (projection : Projection) (field : String) (table : Table) : Option Domain :=
  let key := projection.key table
  match table.rows with
  | [] => none
  | row :: rest =>
    some ⟨table.cellOf (leastRow key row rest) field,
      (table.cellOf (greatestRow key row rest) field).next⟩

end Domain

end LinkedViews
