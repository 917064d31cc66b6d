/-!
Where a page gets the script libraries and the stylesheet from that its charts need.
-/

namespace LinkedViews

/-- The module loader, the element library, three modules and a stylesheet. The locations of the
modules are without the ending `.js`, which the loader adds. -/
structure Resources where
  requireJs : String
  jquery : String
  d3 : String
  crossfilter : String
  dc : String
  dcCss : String
deriving DecidableEq, Repr

/-- Public locations, for what a configuration does not name. -/
def Resources.standard : Resources where
  requireJs := "https://cdnjs.cloudflare.com/ajax/libs/require.js/2.1.10/require.min.js"
  jquery := "https://cdnjs.cloudflare.com/ajax/libs/jquery/2.0.3/jquery.min.js"
  d3 := "https://cdnjs.cloudflare.com/ajax/libs/d3/3.5.16/d3.min"
  crossfilter := "https://cdnjs.cloudflare.com/ajax/libs/crossfilter/1.3.12/crossfilter.min"
  dc := "https://cdnjs.cloudflare.com/ajax/libs/dc/2.0.0-beta.32/dc"
  dcCss := "https://cdnjs.cloudflare.com/ajax/libs/dc/1.7.5/dc.min.css"

end LinkedViews
