import LinkedViews.Script.Projection
import LinkedViews.Table.Basic
import LinkedViews.Text.Quoted

/-!
The keys under which a chart groups its records, their order and their text. Booleans come before
numbers, numbers before texts and texts before tuples. Numbers are ordered by their rank, texts by
their code points, and tuples by their first items that differ.
-/

namespace LinkedViews

inductive Key where
  | boolean (value : Bool)
  | number (value : Binary64)
  | text (value : String)
  | tuple (items : List Key)
deriving Repr, Inhabited

namespace Key

/-- The place of the kinds of keys among each other. -/
def kindRank : Key → Nat
  | boolean _ => 0
  | number _ => 1
  | text _ => 2
  | tuple _ => 3

def codePoints (text : String) : List Nat := text.toList.map Char.toNat

mutual

def compare : Key → Key → Ordering
  | boolean a, boolean b => Ord.compare a b
  | number a, number b => Ord.compare a.rank b.rank
  | text a, text b => Ord.compare (codePoints a) (codePoints b)
  | tuple a, tuple b => compareItems a b
  | a, b => Ord.compare a.kindRank b.kindRank

/-- The first items that differ decide, and a tuple comes before all that continue it. -/
def compareItems : List Key → List Key → Ordering
  | [], [] => .eq
  | [], _ :: _ => .lt
  | _ :: _, [] => .gt
  | a :: as, b :: bs => (compare a b).then (compareItems as bs)

end

instance : Ord Key := ⟨compare⟩

mutual

/-- The text of a key: numbers in the plain form, texts quoted, tuples in brackets. -/
def display : Key → String
  | boolean value => if value then "true" else "false"
  | number value => Numeral.plain value
  | text value => Text.Quoted.render value
  | tuple items => "[" ++ String.intercalate ", " (displayItems items) ++ "]"

def displayItems : List Key → List String
  | [] => []
  | item :: rest => display item :: displayItems rest

end

/-- The key that a cell is by itself. Null is compared as zero. -/
def ofCell : Cell → Key
  | .null => number .zero
  | .boolean value => boolean value
  | .text value => text value
  | cell => number cell.toNumber

end Key

def Projection.key (projection : Projection) (table : Table) (row : List Cell) : Key :=
  match projection with
  | raw field => .ofCell (table.cellOf row field)
  | numeric field => .number (table.cellOf row field).toNumber
  | triple x y color =>
    .tuple
      [.number (table.cellOf row x).toNumber, .number (table.cellOf row y).toNumber,
        .ofCell (table.cellOf row color)]

end LinkedViews
