import LinkedViews.Json.Basic
import LinkedViews.Page.Resources
import LinkedViews.Text.Html

/-!
How a page loads the modules its script needs: a call that tells the module loader where they are,
a link to the stylesheet, and the call in which the script runs once they are there.
-/

namespace LinkedViews

namespace Resources

/-- The configuration of the module loader, with the names of each object in ascending order. -/
def loaderConfiguration (resources : Resources) : Json :=
  .object
    [("paths",
        .object
          [("crossfilter", .text resources.crossfilter),
            ("d3", .text resources.d3),
            ("dc", .text resources.dc)]),
      ("shim",
        .object
          [("crossfilter",
            .object [("deps", .array []), ("exports", .text "crossfilter")])])]

def loaderCall (resources : Resources) : String :=
  "require.config(" ++ resources.loaderConfiguration.pretty ++ ");"

def stylesheetLink (resources : Resources) : String :=
  "<link href=\"" ++ Text.Html.escape resources.dcCss ++
    "\" rel=\"stylesheet\" type=\"text/css\">"

/-- The modules in the order in which they are handed to the script. -/
def modules : List String := ["d3", "crossfilter", "dc"]

def opener : String :=
  "require(" ++ (Json.array (modules.map Json.text)).compact ++ ", function(" ++
    String.intercalate ", " modules ++ ") \x7b"

end Resources

/-- The libraries as a page takes them up: where they are, the call that loads the modules and the
link to the stylesheet. -/
structure Bootstrap where
  resources : Resources
  loaderCall : String
  stylesheetLink : String
deriving DecidableEq, Repr

def Resources.bootstrap (resources : Resources) : Bootstrap :=
  ⟨resources, resources.loaderCall, resources.stylesheetLink⟩

end LinkedViews
