import LinkedViews.Script.Fragment
import LinkedViews.Script.IndexName

/-!
The fragment that shows how many records of the index are selected.
-/

namespace LinkedViews

def Fragment.summary (index : IndexName) : Fragment where
  label := "Summary"
  elementKey := none
  body := String.intercalate "\n"
    ["var all = " ++ index.text ++ ".groupAll();",
      "element.append('<div id=\"dc-' + displayId + '-count\">" ++
        "<strong class=\"filter-count\">?</strong> selected ' +",
      "               'out of <strong class=\"total-count\">?</strong> records</div>' +",
      "               '<div style=\"clear: both;\"></div>');",
      "var count = dc.dataCount(\"#dc-\" + displayId + \"-count\");",
      "count.dimension(" ++ index.text ++ ").group(all);"]

end LinkedViews
