import LinkedViews.Proofs.Browser.ScriptElement
import LinkedViews.Proofs.Json.Pretty
import LinkedViews.Proofs.Page.Document
import LinkedViews.Proofs.Text.Html

/-!
The script in which a page loads its modules. The call in it has the locations of the modules as
they were given. Unlike in the records and in the strings of the charts, a closing tag in them is
not taken apart, so a location can end the script early.
-/

namespace LinkedViews

open Text Json.Grammar Browser.ScriptData

variable {text mark : List Char} {resources : Resources} {displayId : String}

/-! ## Marks of the call -/

/-- A closing tag is a mark in any case of its letters. -/
theorem endsScript_iff :
    EndsScript text ↔ ∃ mark, mark.map Char.toLower = closing ∧ mark <:+: text := by
  constructor
  · rintro ⟨front, back, shape⟩
    obtain ⟨before, behind, rfl, own, _⟩ := List.map_eq_append_iff.mp shape.symm
    obtain ⟨before, mark, rfl, _, same⟩ := List.map_eq_append_iff.mp own
    exact ⟨mark, same, before, behind, rfl⟩
  · rintro ⟨mark, same, found⟩
    rw [EndsScript, ← same]
    exact found.map Char.toLower

/-- A mark that the call shows as it is. It reaches neither beyond the parentheses of the call nor
beyond the quotes in front of it. -/
structure IsCallMark (mark : List Char) : Prop extends IsShownMark mark where
  notMem_paren : ')' ∉ mark
  notMem_quote : '\'' ∉ mark

theorem isCallMark_of_toLower (same : mark.map Char.toLower = closing) : IsCallMark mark := by
  have letters (c : Char) (inside : c ∈ mark) : c.toLower ∈ closing :=
    same ▸ List.mem_map_of_mem inside
  have between : ∀ c ∈ ['"', '\\', ',', ':', '[', ']', '\x7b', '\x7d'], c.toLower ∉ closing := by
    simp [closing]
  have printable : ∀ c ∈ closing, 0x20 ≤ c.toNat := by simp [closing]
  refine ⟨⟨⟨?_, fun c one inside => between c one (letters c inside)⟩, fun c inside => ?_⟩,
    fun inside => absurd (letters ')' inside) (by decide),
    fun inside => absurd (letters '\'' inside) (by decide)⟩
  · obtain ⟨c, rest, rfl, first, _⟩ := List.map_eq_cons_iff.mp same
    rw [(toLower_eq_iff (by decide)).mp first]
    rfl
  · by_cases upper : c.isUpper = true
    · simp only [Char.isUpper, decide_eq_true_eq] at upper
      exact Nat.le_trans (by decide) (UInt32.le_iff_toNat_le.mp upper.1)
    · have own := letters c inside
      rw [Char.toLower_eq_of_not_isUpper upper] at own
      exact printable c own

theorem isCallMark_commentMark : IsCallMark commentMark :=
  ⟨⟨⟨rfl, by simp [commentMark]⟩, by simp [commentMark]⟩, by decide, by decide⟩

/-- Where all marks of the call come from, closing tags come from. -/
theorem endsScript_of_marks {texts : List String}
    (marks : ∀ mark, IsCallMark mark → (mark <:+: text ↔ ∃ one ∈ texts, mark <:+: one.toList)) :
    EndsScript text ↔ ∃ one ∈ texts, EndsScript one.toList := by
  simp only [endsScript_iff]
  constructor
  · rintro ⟨mark, same, found⟩
    obtain ⟨one, member, own⟩ := (marks mark (isCallMark_of_toLower same)).mp found
    exact ⟨one, member, mark, same, own⟩
  · rintro ⟨one, member, mark, same, own⟩
    exact ⟨mark, same, (marks mark (isCallMark_of_toLower same)).mpr ⟨one, member, own⟩⟩

namespace Resources

/-- Where the modules are that the script is handed, in its order. -/
def locations (resources : Resources) : List String :=
  [resources.d3, resources.crossfilter, resources.dc]

/-- The configuration has fixed names and the locations. -/
theorem strings_loaderConfiguration (resources : Resources) :
    resources.loaderConfiguration.strings =
      ["paths", "crossfilter", resources.crossfilter, "d3", resources.d3, "dc", resources.dc,
        "shim", "crossfilter", "deps", "exports", "crossfilter"] := rfl

theorem toList_loaderCall (resources : Resources) :
    resources.loaderCall.toList =
      "require.config(".toList ++
        (Json.prettyChars 0 resources.loaderConfiguration ++ ')' :: [';']) := by
  unfold loaderCall
  simp only [String.toList_append, List.append_assoc, Json.pretty, String.toList_ofList]
  rfl

theorem infix_loaderCall (isMark : IsCallMark mark) :
    mark <:+: resources.loaderCall.toList ↔
      ∃ location ∈ resources.locations, mark <:+: location.toList := by
  have names : ["paths", "crossfilter", "d3", "dc", "shim", "deps", "exports"].Forall
      fun name => ¬ mark <:+: name.toList := by
    and_intros <;> exact isMark.not_isInfix (by decide)
  simp only [List.Forall] at names
  obtain ⟨paths, crossfilter, d3, dc, shim, deps, exports⟩ := names
  have ending : ¬ mark <:+: [';'] := isMark.not_isInfix (by decide)
  rw [toList_loaderCall, isMark.infix_append (by decide +kernel),
    infix_append_cons_iff isMark.notMem_paren, or_iff_left ending,
    infix_prettyChars isMark.toIsShownMark, strings_loaderConfiguration, locations]
  simp only [List.exists_mem_cons_iff, paths, crossfilter, d3, dc, shim, deps, exports, false_or]
  exact or_left_comm

theorem endsScript_loaderCall :
    EndsScript resources.loaderCall.toList ↔
      ∃ location ∈ resources.locations, EndsScript location.toList :=
  endsScript_of_marks fun _ isMark => infix_loaderCall isMark

end Resources

/-! ## The page -/

namespace Page

open Template

/-- What a script begins with that stands in the page; the others begin with their source. -/
def inlineTag : String := "<script type="

def scriptTag : String := "<script type=\"text/javascript\">"

/-- The page up to the first display id. -/
def heading (resources : Resources) : String :=
  "<!DOCTYPE html>\n<html>\n<head><meta charset=\"utf-8\" />\n<title>" ++ title ++
    "</title>\n<script src=\"" ++ Html.escape resources.requireJs ++
    "\"></script>\n<script src=\"" ++ Html.escape resources.jquery ++
    "\"></script>\n" ++ resources.stylesheetLink ++ "\n</head>\n<body>\n<div id="

/-- The page up to the first script that stands in it. -/
def opening (resources : Resources) (displayId : String) : String :=
  heading resources ++ "\"" ++ displayId ++ "\"></div>\n"

/-- The first script that stands in the page. -/
def loaderScript (resources : Resources) (displayId : String) : String :=
  "\nvar element = $('#" ++ displayId ++ "');\n" ++ resources.loaderCall ++ "\n"

theorem document_eq (resources : Resources) (displayId script : String) :
    document resources displayId script =
      opening resources displayId ++ scriptTag ++ loaderScript resources displayId ++ "</script>" ++
        ("\n" ++ scriptTag ++ "\n" ++ script ++ ending) := by
  have place : "\n</head>\n<body>\n<div id=\"" = "\n</head>\n<body>\n<div id=" ++ "\"" := by
    decide +kernel
  have first : "\"></div>\n<script type=\"text/javascript\">\nvar element = $('#" =
      "\"></div>\n" ++ scriptTag ++ "\nvar element = $('#" := by decide +kernel
  have second : "\n</script>\n<script type=\"text/javascript\">\n" =
      "\n" ++ "</script>" ++ "\n" ++ scriptTag ++ "\n" := by decide +kernel
  have values : (slots resources.bootstrap displayId script).map Slot.value =
      [title, Html.escape resources.requireJs, Html.escape resources.jquery,
        resources.stylesheetLink, displayId, resources.loaderCall, script] := rfl
  rw [document, render_eq, values]
  dsimp only [pieces, writeOut, List.getElem?_cons_zero, List.getElem?_cons_succ, Option.getD_some]
  -- `rw` would try to close the goal as well and unfold the literals for it.
  rewrite [place, first, second]
  unfold opening heading loaderScript
  simp only [String.append_assoc]

theorem isFree_of_notMem {openings : List (List Char)} (absent : '<' ∉ text)
    (opens : ∀ opening ∈ openings, opening.head? = some '<') : isFree openings text = true := by
  induction text with
  | nil => rfl
  | cons c rest ih =>
      have other : c ≠ '<' := fun same => absent (same ▸ List.mem_cons_self)
      rw [isFree, ih fun member => absent (List.mem_cons_of_mem c member), Bool.and_true,
        List.all_eq_true]
      intro opening listed
      obtain ⟨more, rfl⟩ := List.head?_eq_some_iff.mp (opens opening listed)
      simp [differ, other]

theorem isFree_heading (resources : Resources) : IsFree [inlineTag.toList] (heading resources) := by
  have escaped (value : String) : IsFree [inlineTag.toList] (Html.escape value) := by
    refine isFree_of_notMem ?_ (by decide)
    rw [Html.escape, String.toList_ofList]
    exact Html.notMem_escapeChars (by decide) value.toList
  have link : IsFree [inlineTag.toList] resources.stylesheetLink :=
    .append (.append (.ofList rfl) (escaped _)) (.ofList rfl)
  have scripts : IsFree [inlineTag.toList]
      ("<!DOCTYPE html>\n<html>\n<head><meta charset=\"utf-8\" />\n<title>" ++ title ++
        "</title>\n<script src=\"" ++ Html.escape resources.requireJs ++
        "\"></script>\n<script src=\"" ++ Html.escape resources.jquery ++ "\"></script>\n") :=
    .append (.append (.append (.append (.append (.append (.ofList rfl) (.ofList rfl)) (.ofList rfl))
      (escaped _)) (.ofList rfl)) (escaped _)) (.ofList rfl)
  exact .append (.append scripts link) (.ofList rfl)

/-- The scripts in front of it are loaded; only a display id could have one that stands there. -/
theorem infix_opening : inlineTag.toList <:+: (opening resources displayId).toList ↔
    inlineTag.toList <:+: displayId.toList := by
  have solid : '"' ∉ inlineTag.toList := by decide
  have before : ¬ inlineTag.toList <:+: (heading resources).toList :=
    IsFree.not_infix (isFree_heading resources) (List.mem_singleton_self _) (by decide)
  have behind : ¬ inlineTag.toList <:+: "></div>\n".toList := by decide
  have shape : (opening resources displayId).toList = (heading resources).toList ++
      '"' :: (displayId.toList ++ '"' :: "></div>\n".toList) := by
    unfold opening
    simp only [String.toList_append, List.append_assoc]
    rfl
  rw [shape, infix_append_cons_iff solid, infix_append_cons_iff solid, or_iff_right before,
    or_iff_left behind]

theorem toList_loaderScript (resources : Resources) (displayId : String) :
    (loaderScript resources displayId).toList =
      "\nvar element = $('#".toList ++ (displayId.toList ++
        '\'' :: (");\n".toList ++ (resources.loaderCall.toList ++ '\n' :: []))) := by
  unfold loaderScript
  simp only [String.toList_append, List.append_assoc]
  rfl

theorem infix_loaderScript (isMark : IsCallMark mark) :
    mark <:+: (loaderScript resources displayId).toList ↔
      ∃ text ∈ displayId :: resources.locations, mark <:+: text.toList := by
  have none : ¬ mark <:+: [] := isMark.not_isInfix List.not_mem_nil
  rw [toList_loaderScript, isMark.infix_append (by decide +kernel),
    infix_append_cons_iff isMark.notMem_quote, isMark.infix_append (by decide),
    infix_append_cons_iff isMark.notMem_feed, or_iff_left none,
    Resources.infix_loaderCall isMark, List.exists_mem_cons_iff]

/-- The call tells the loader the locations as they are. Its script ends in the call only through a
location with a closing tag. Where neither a location nor the display id has one, the page holds the
script up to the closing tag behind it, unless a comment mark and an opening tag of a script nest
what follows. -/
theorem holds_loaderScript (resources : Resources) (displayId script : String) :
    (∃ body, resources.loaderCall = "require.config(" ++ body ++ ");" ∧
        Json.Grammar.parse? body.toList = some (.object
          [("paths", .object
              [("crossfilter", .text resources.crossfilter), ("d3", .text resources.d3),
                ("dc", .text resources.dc)]),
            ("shim", .object
              [("crossfilter",
                .object [("deps", .array []), ("exports", .text "crossfilter")])])])) ∧
      (EndsScript resources.loaderCall.toList ↔
        ∃ location ∈ resources.locations, EndsScript location.toList) ∧
      (∃ front back,
        document resources displayId script =
          front ++ scriptTag ++ loaderScript resources displayId ++ "</script>" ++ back ∧
        (inlineTag.toList <:+: front.toList ↔ inlineTag.toList <:+: displayId.toList)) ∧
      ((∀ text ∈ displayId :: resources.locations, ¬ EndsScript text.toList) →
        (Holds (loaderScript resources displayId).toList ↔
          ¬ Somewhere Nests (loaderScript resources displayId).toList) ∧
        ((∀ text ∈ displayId :: resources.locations, ¬ commentMark <:+: text.toList) →
          Holds (loaderScript resources displayId).toList)) := by
  refine ⟨⟨_, rfl, Json.Grammar.parse?_pretty resources.loaderConfiguration⟩,
    Resources.endsScript_loaderCall,
    ⟨_, _, document_eq resources displayId script, infix_opening⟩, fun unclosed => ?_⟩
  have noTag : ¬ EndsScript (loaderScript resources displayId).toList := by
    rw [endsScript_of_marks fun _ => infix_loaderScript]
    rintro ⟨text, listed, ends⟩
    exact unclosed text listed ends
  refine ⟨holds_iff noTag, fun unmarked => (holds_iff noTag).mpr fun nests => ?_⟩
  obtain ⟨text, listed, mark⟩ :=
    (infix_loaderScript isCallMark_commentMark).mp (isInfix_commentMark nests)
  exact unmarked text listed mark

/-- Closing tags of other elements do no harm. -/
theorem holds_loaderScript_emphasis :
    let resources := { Resources.standard with d3 := "/static/</em>/d3" }
    Holds (loaderScript resources "0b2f6f0e-9b0d-4c5e-8f3a-1d2c3b4a5968").toList := by
  intro resources
  have unclosed : ∀ text ∈ "0b2f6f0e-9b0d-4c5e-8f3a-1d2c3b4a5968" :: resources.locations,
      ¬ EndsScript text.toList := by decide +kernel
  have unmarked : ∀ text ∈ "0b2f6f0e-9b0d-4c5e-8f3a-1d2c3b4a5968" :: resources.locations,
      ¬ commentMark <:+: text.toList := by decide +kernel
  exact ((holds_loaderScript resources _ "").2.2.2 unclosed).2 unmarked

/-- The location of a module may be a closing tag; then the script ends within the call. -/
theorem holds_loaderScript_closingTag :
    let resources := { Resources.standard with d3 := "</script>" }
    EndsScript resources.loaderCall.toList ∧
      ¬ Holds (loaderScript resources "0b2f6f0e-9b0d-4c5e-8f3a-1d2c3b4a5968").toList := by
  intro resources
  refine ⟨Resources.endsScript_loaderCall.mpr ⟨"</script>", List.mem_cons_self, by decide⟩, ?_⟩
  have closed : after .data (loaderScript resources
      "0b2f6f0e-9b0d-4c5e-8f3a-1d2c3b4a5968").toList = .closed := by
    rw [toList_loaderScript, Resources.toList_loaderCall]
    decide +kernel
  exact fun holds => holds.1 _ List.prefix_rfl closed

end Page

end LinkedViews
