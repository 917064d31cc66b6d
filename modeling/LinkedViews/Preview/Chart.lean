import LinkedViews.Preview.Buckets
import LinkedViews.Preview.Domain
import LinkedViews.Script.Program

/-!
Previews of charts: what a chart shows of a whole table, without a browser.
-/

namespace LinkedViews

structure Preview where
  elementKey : String
  buckets : List Bucket
  domain : Option Domain
deriving Repr

def Preview.ofChart (chart : Chart) (index : IndexName) (table : Table) : Preview :=
  let program := Program.ofChart chart index
  let labelled := table.labelled
  { elementKey := program.elementKey
    buckets := Buckets.ofTable program.projection program.grouping labelled
    domain := Domain.ofTable? program.projection program.probeField labelled }

end LinkedViews
