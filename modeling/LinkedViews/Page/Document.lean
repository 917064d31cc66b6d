import LinkedViews.Page.Loader
import LinkedViews.Page.Template

/-!
The page that a dashboard is saved as: one element for the charts, a script that loads the modules
and a script that makes the charts.
-/

namespace LinkedViews.Page

def title : String := "crossfilter dashboard"

def template : String :=
  String.intercalate "\n"
    ["<!DOCTYPE html>",
      "<html>",
      "<head><meta charset=\"utf-8\" />",
      "<title>__TITLE__</title>",
      "<script src=\"__REQUIRE_JS__\"></script>",
      "<script src=\"__JQUERY__\"></script>",
      "__STYLESHEET__",
      "</head>",
      "<body>",
      "<div id=\"__DISPLAY_ID__\"></div>",
      "<script type=\"text/javascript\">",
      "var element = $('#__DISPLAY_ID__');",
      "/* __LOADER_PLACEHOLDER__ */",
      "</script>",
      "<script type=\"text/javascript\">",
      "/* __SCRIPT_PLACEHOLDER__ */",
      "</script>",
      "</body>",
      "</html>",
      ""]

def slots (bootstrap : Bootstrap) (displayId script : String) : List Template.Slot :=
  [⟨"__TITLE__", title, by decide⟩,
    ⟨"__REQUIRE_JS__", Text.Html.escape bootstrap.resources.requireJs, by decide⟩,
    ⟨"__JQUERY__", Text.Html.escape bootstrap.resources.jquery, by decide⟩,
    ⟨"__STYLESHEET__", bootstrap.stylesheetLink, by decide⟩,
    ⟨"__DISPLAY_ID__", displayId, by decide⟩,
    ⟨"/* __LOADER_PLACEHOLDER__ */", bootstrap.loaderCall, by decide⟩,
    ⟨"/* __SCRIPT_PLACEHOLDER__ */", script, by decide⟩]

def render (bootstrap : Bootstrap) (displayId script : String) : String :=
  Template.fill template (slots bootstrap displayId script)

def document (resources : Resources) (displayId script : String) : String :=
  render resources.bootstrap displayId script

end LinkedViews.Page
