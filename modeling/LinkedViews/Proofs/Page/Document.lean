import LinkedViews.Page.Document
import LinkedViews.Proofs.Page.Template

/-!
The text of a page: the fixed text of the template with the values in it, each as it is.
-/

namespace LinkedViews.Page

open Template

/-! ## The pieces of the page -/

/-- The marks of the page, in the order of its slots. -/
def marks : List String :=
  ["__TITLE__", "__REQUIRE_JS__", "__JQUERY__", "__STYLESHEET__", "__DISPLAY_ID__",
    "/* __LOADER_PLACEHOLDER__ */", "/* __SCRIPT_PLACEHOLDER__ */"]

/-- What the marks of the page begin with. -/
def openings : List (List Char) := [['_', '_'], ['/', '*']]

def pieces : List (String × Nat) :=
  [("<!DOCTYPE html>\n<html>\n<head><meta charset=\"utf-8\" />\n<title>", 0),
    ("</title>\n<script src=\"", 1),
    ("\"></script>\n<script src=\"", 2),
    ("\"></script>\n", 3),
    ("\n</head>\n<body>\n<div id=\"", 4),
    ("\"></div>\n<script type=\"text/javascript\">\nvar element = $('#", 4),
    ("');\n", 5),
    ("\n</script>\n<script type=\"text/javascript\">\n", 6)]

def ending : String := "\n</script>\n</body>\n</html>\n"

theorem opens_marks :
    ∀ mark ∈ marks.map String.toList, ∃ opening ∈ openings, opening <+: mark := by
  decide +kernel

theorem apart_marks :
    (marks.map String.toList).Pairwise fun earlier mark => Text.differ mark earlier = true := by
  decide +kernel

theorem isLeftmost_pieces : IsLeftmost (marks.map String.toList) (layOut pieces ending) := by
  refine isLeftmost_layOut opens_marks apart_marks ?_ (.ofList rfl)
  and_intros <;> first | exact .ofList rfl | decide

theorem template_eq : template = writeOut marks pieces ending := by decide +kernel

/-- The page has each value as it is, whatever marks are in it. -/
theorem render_eq (bootstrap : Bootstrap) (displayId script : String) :
    render bootstrap displayId script =
      writeOut ((slots bootstrap displayId script).map Slot.value) pieces ending := by
  have own : marksOf (slots bootstrap displayId script) = marks.map String.toList := rfl
  have filled : fillFrom (slots bootstrap displayId script) template.toList =
      spell (valuesOf (slots bootstrap displayId script)) (layOut pieces ending) := by
    rw [template_eq, toList_writeOut, ← own]
    exact fillFrom_spell (own ▸ isLeftmost_pieces)
  rw [render, fill, filled, ← String.toList_inj, String.toList_ofList, toList_writeOut, valuesOf,
    List.map_map]
  rfl

/-- Filling is one substitution. By its marks a template has one reading, from the left and with the
first listed mark wherever one begins; whatever the values are, it is filled to this reading with
the values for the marks. The search comes to an end, since each round leaves a shorter rest. -/
theorem fill_substitutes (template : String) (slots : List Slot) (bootstrap : Bootstrap)
    (displayId script : String) :
    (∃ parts, (∀ others, IsReading (marksOf slots) template.toList others ↔ others = parts) ∧
        ∀ others, marksOf others = marksOf slots →
          (fill template others).toList = spell (valuesOf others) parts) ∧
      (∀ text next, nearest? slots text = some next →
        (next.behind text).length < text.length) ∧
      render bootstrap displayId script =
        "<!DOCTYPE html>\n<html>\n<head><meta charset=\"utf-8\" />\n<title>" ++ title ++
        "</title>\n<script src=\"" ++ Text.Html.escape bootstrap.resources.requireJs ++
        "\"></script>\n<script src=\"" ++ Text.Html.escape bootstrap.resources.jquery ++
        "\"></script>\n" ++ bootstrap.stylesheetLink ++
        "\n</head>\n<body>\n<div id=\"" ++ displayId ++
        "\"></div>\n<script type=\"text/javascript\">\nvar element = $('#" ++ displayId ++
        "');\n" ++ bootstrap.loaderCall ++
        "\n</script>\n<script type=\"text/javascript\">\n" ++ script ++
        "\n</script>\n</body>\n</html>\n" := by
  have solid : [] ∉ marksOf slots := nil_notMem_marksOf slots
  obtain ⟨parts, reading⟩ := exists_isReading solid template.toList
  refine ⟨⟨parts, fun others => ⟨fun other => ?_, fun same => same ▸ reading⟩, fun others same => ?_⟩,
    fun _ _ => length_behind_lt, ?_⟩
  · exact other.leftmost.unique solid reading.leftmost (other.spelled.trans reading.spelled.symm)
  · rw [fill, String.toList_ofList, ← reading.spelled, ← same]
    exact fillFrom_spell (same ▸ reading.leftmost)
  · rw [render_eq]
    simp only [pieces, ending, writeOut, String.append_assoc]
    rfl

/-- A value that is a mark itself stays. -/
theorem fill_substitutes_nested :
    let slots : List Slot := [⟨"<A>", "<B>", by decide⟩, ⟨"<B>", "b", by decide⟩]
    fill "<A>-<B>-<A>" slots = "<B>-b-<B>" := by
  intro slots
  obtain ⟨⟨parts, reading, filled⟩, _⟩ :=
    fill_substitutes "<A>-<B>-<A>" slots Resources.standard.bootstrap "" ""
  have own : [.mark 0, .kept '-', .mark 1, .kept '-', .mark 0] = parts :=
    (reading _).mp ⟨by decide, by simp [IsLeftmost, Part.Leads, slots, marksOf, spell, Part.text]⟩
  rw [← String.toList_inj, filled slots rfl, ← own]
  decide

end LinkedViews.Page
