import Mathlib
import LinkedViews.Json.Script
import LinkedViews.Text.Lines

/-!
Texts in which a script element would end. An element ends where `</script` begins, in letters of
any case. A text is free of it between characters that are no part of it; and texts that are guarded
by themselves, so that each `<` in them is seen not to begin it, can be put together in any order.
-/

namespace LinkedViews.Text

variable {text front back pattern separator : List Char} {c : Char}

def closing : List Char := ['<', '/', 's', 'c', 'r', 'i', 'p', 't']

/-- Whether a script element that holds a text would end in it. -/
def EndsScript (text : List Char) : Prop := closing <:+: text.map Char.toLower

instance (text : List Char) : Decidable (EndsScript text) :=
  inferInstanceAs (Decidable (_ <:+: _))

theorem exists_mem_map {item result : Type} {items : List item} {f : item → result}
    {holds : result → Prop} :
    (∃ part ∈ items.map f, holds part) ↔ ∃ one ∈ items, holds (f one) := by
  constructor
  · rintro ⟨_, member, own⟩
    obtain ⟨one, inside, rfl⟩ := List.mem_map.mp member
    exact ⟨one, inside, own⟩
  · rintro ⟨one, inside, own⟩
    exact ⟨f one, List.mem_map_of_mem inside, own⟩

/-! ## Separators -/

theorem prefix_append_cons_iff (front back : List Char) (absent : c ∉ pattern) :
    pattern <+: front ++ c :: back ↔ pattern <+: front := by
  induction front generalizing pattern with
  | nil =>
      cases pattern with
      | nil => simp
      | cons d rest =>
          have different : d ≠ c := fun same => absent (by simp [same])
          simp [List.cons_prefix_cons, different]
  | cons f front ih =>
      cases pattern with
      | nil => simp
      | cons d rest =>
          rw [List.cons_append, List.cons_prefix_cons, List.cons_prefix_cons,
            ih fun inside => absent (List.mem_cons_of_mem d inside)]

theorem infix_append_cons_iff (absent : c ∉ pattern) :
    pattern <:+: front ++ c :: back ↔ pattern <:+: front ∨ pattern <:+: back := by
  induction front with
  | nil =>
      have none := prefix_append_cons_iff [] back absent
      rw [List.nil_append] at none ⊢
      rw [List.infix_cons_iff, none, List.prefix_nil, List.infix_nil]
  | cons f front ih =>
      have first := prefix_append_cons_iff (f :: front) back absent
      rw [List.cons_append] at first ⊢
      rw [List.infix_cons_iff, first, ih, ← or_assoc, ← List.infix_cons_iff]

theorem endsScript_append_cons (absent : c.toLower ∉ closing) :
    EndsScript (front ++ c :: back) ↔ EndsScript front ∨ EndsScript back := by
  rw [EndsScript, List.map_append, List.map_cons, infix_append_cons_iff absent]
  rfl

theorem not_endsScript_nil : ¬ EndsScript [] := by decide

theorem endsScript_cons (absent : c.toLower ∉ closing) :
    EndsScript (c :: back) ↔ EndsScript back := by
  have split : EndsScript ([] ++ c :: back) ↔ EndsScript [] ∨ EndsScript back :=
    endsScript_append_cons absent
  rw [List.nil_append] at split
  rw [split, or_iff_right not_endsScript_nil]

theorem endsScript_separator_append (absent : ∀ c ∈ separator, c.toLower ∉ closing) :
    EndsScript (separator ++ back) ↔ EndsScript back := by
  induction separator with
  | nil => rfl
  | cons c rest ih =>
      rw [List.cons_append, endsScript_cons (absent c (by simp)),
        ih fun d member => absent d (by simp [member])]

theorem endsScript_intercalate {parts : List (List Char)} (nonempty : separator ≠ [])
    (absent : ∀ c ∈ separator, c.toLower ∉ closing) :
    EndsScript (separator.intercalate parts) ↔ ∃ part ∈ parts, EndsScript part := by
  induction parts with
  | nil => simp [not_endsScript_nil]
  | cons part rest ih =>
      cases rest with
      | nil => simp
      | cons next others =>
          obtain ⟨c, separator, rfl⟩ := List.exists_cons_of_ne_nil nonempty
          rw [List.intercalate_cons_cons, List.append_assoc, List.cons_append,
            endsScript_append_cons (absent c (by simp)),
            endsScript_separator_append fun d member => absent d (by simp [member]), ih]
          simp

theorem forall_mem_intercalate {item : Type} {p : item → Prop} {separator : List item}
    (between : ∀ one ∈ separator, p one) (parts : List (List item)) :
    (∀ one ∈ separator.intercalate parts, p one) ↔ ∀ part ∈ parts, ∀ one ∈ part, p one := by
  induction parts with
  | nil => simp
  | cons part rest ih =>
      cases rest with
      | nil => simp
      | cons next others =>
          rw [List.intercalate_cons_cons, List.forall_mem_append, List.forall_mem_append, ih,
            and_iff_left between]
          exact (List.forall_mem_cons (p := fun part => ∀ one ∈ part, p one)).symm

/-! ## Replaced characters -/

theorem prefix_map_iff {f : Char → Char} (text : List Char)
    (kept : ∀ c, f c = c ∨ c.toLower ∉ pattern ∧ (f c).toLower ∉ pattern) :
    pattern <+: (text.map f).map Char.toLower ↔ pattern <+: text.map Char.toLower := by
  induction text generalizing pattern with
  | nil => rfl
  | cons c rest ih =>
      cases pattern with
      | nil => simp
      | cons d others =>
          have others_kept : ∀ e, f e = e ∨ e.toLower ∉ others ∧ (f e).toLower ∉ others :=
            fun e => (kept e).imp_right fun ⟨out, out'⟩ =>
              ⟨fun inside => out (List.mem_cons_of_mem d inside),
                fun inside => out' (List.mem_cons_of_mem d inside)⟩
          have later := ih others_kept
          simp only [List.map_cons, List.cons_prefix_cons, later]
          rcases kept c with same | ⟨out, out'⟩
          · rw [same]
          · have first : d ≠ c.toLower := fun same => out (by simp [same])
            have second : d ≠ (f c).toLower := fun same => out' (by simp [same])
            simp [first, second]

/-- A tag is neither made nor broken where characters outside tags take the place of others. -/
theorem endsScript_map {f : Char → Char}
    (kept : ∀ c, f c = c ∨ c.toLower ∉ closing ∧ (f c).toLower ∉ closing) :
    EndsScript (text.map f) ↔ EndsScript text := by
  induction text with
  | nil => rfl
  | cons c rest ih =>
      have first := prefix_map_iff (c :: rest) kept
      simp only [EndsScript, List.map_cons] at ih first ⊢
      rw [List.infix_cons_iff, List.infix_cons_iff, first, ih]

/-! ## Lines -/

attribute [local grind =] lines

/-- Texts behind one character begin with the same where their rests do. -/
theorem prefix_cons_congr {line : List Char}
    (later : ∀ d others, pattern = d :: others → (others <+: text ↔ others <+: line)) :
    pattern <+: c :: text ↔ pattern <+: c :: line := by
  cases pattern with
  | nil => simp
  | cons d others => rw [List.cons_prefix_cons, List.cons_prefix_cons, later d others rfl]

/-- What a text begins with, its first line begins with. -/
theorem prefix_lines_iff (text : List Char) (noFeed : '\n' ∉ pattern) (noReturn : '\r' ∉ pattern) :
    pattern <+: text.map Char.toLower ↔
      pattern <+: ((lines text).headD []).map Char.toLower := by
  -- The pattern loses its first character with the text, so any pattern without line ends will do.
  induction text using lines.induct generalizing pattern with
  | case1 => rfl
  | case2 rest _ =>
      rw [lines]
      exact prefix_append_cons_iff [] _ noFeed
  | case3 rest _ =>
      rw [lines]
      exact prefix_append_cons_iff [] _ noReturn
  | case4 c rest notFeed notReturn alone ih =>
      have own : lines (c :: rest) = [[c]] := by simp [lines, alone]
      rw [own]
      refine prefix_cons_congr ?_
      rintro d others rfl
      rw [ih (fun inside => noFeed (List.mem_cons_of_mem d inside))
        (fun inside => noReturn (List.mem_cons_of_mem d inside)), alone]
      rfl
  | case5 c rest notFeed notReturn line more first ih =>
      have own : lines (c :: rest) = (c :: line) :: more := by simp [lines, first]
      rw [own]
      refine prefix_cons_congr ?_
      rintro d others rfl
      rw [ih (fun inside => noFeed (List.mem_cons_of_mem d inside))
        (fun inside => noReturn (List.mem_cons_of_mem d inside)), first]
      rfl

theorem lines_eq_nil : lines text = [] ↔ text = [] := by
  cases text with
  | nil => simp [lines]
  | cons c rest =>
      refine iff_of_false ?_ (by simp)
      unfold lines
      split <;> simp_all
      split <;> simp

/-- A tag that ends an element lies on one line. -/
theorem endsScript_lines : (∃ line ∈ lines text, EndsScript line) ↔ EndsScript text := by
  induction text using lines.induct with
  | case1 => simp [lines, not_endsScript_nil]
  | case2 rest ih =>
      rw [endsScript_cons (by decide), ← ih]
      simp [lines, not_endsScript_nil]
  | case3 rest ih =>
      rw [endsScript_cons (by decide), endsScript_cons (by decide), ← ih]
      simp [lines, not_endsScript_nil]
  | case4 c rest notFeed notReturn alone ih =>
      have own : lines (c :: rest) = [[c]] := by simp [lines, alone]
      rw [own, lines_eq_nil.mp alone]
      simp
  | case5 c rest notFeed notReturn line more first ih =>
      have own : lines (c :: rest) = (c :: line) :: more := by simp [lines, first]
      have noFeed : '\n' ∉ closing := by decide
      have here := prefix_lines_iff (c :: rest) noFeed (by decide)
      rw [own, List.headD_cons] at here
      rw [first] at ih
      rw [own, EndsScript, List.map_cons, List.infix_cons_iff, ← List.map_cons, here]
      change _ ↔ _ ∨ EndsScript rest
      rw [← ih]
      simp only [List.mem_cons, exists_eq_or_imp, EndsScript, List.map_cons, List.infix_cons_iff]
      rw [or_assoc]

theorem endsScript_indentLine {margin line : List Char}
    (absent : ∀ c ∈ margin, c.toLower ∉ closing) :
    EndsScript (indentLine margin line) ↔ EndsScript line := by
  unfold indentLine
  split
  · rename_i empty
    rw [empty]
  · exact endsScript_separator_append absent

/-- Margins neither make nor break a tag. -/
theorem endsScript_indent {margin text : String}
    (absent : ∀ c ∈ margin.toList, c.toLower ∉ closing) :
    EndsScript (indent margin text).toList ↔ EndsScript text.toList := by
  have feed : ∀ c ∈ ['\n'], c.toLower ∉ closing := by simp [closing]
  rw [indent, String.toList_ofList, endsScript_intercalate (by simp) feed,
    ← endsScript_lines, exists_mem_map]
  simp only [endsScript_indentLine absent]

/-! ## Guarded texts -/

/-- Whether two texts differ before either of them ends. -/
def differ : List Char → List Char → Bool
  | c :: text, d :: pattern => c ≠ d || differ text pattern
  | _, _ => false

/-- Whether no part of a text begins a tag, whatever comes behind the text. -/
def isGuarded : List Char → Bool
  | [] => true
  | c :: rest => differ ((c :: rest).map Char.toLower) closing && isGuarded rest

theorem differ_append (differs : differ text pattern = true) :
    differ (text ++ back) pattern = true := by
  induction text generalizing pattern with
  | nil => simp [differ] at differs
  | cons c rest ih =>
      cases pattern with
      | nil => simp [differ] at differs
      | cons d others =>
          simp only [differ, List.cons_append, Bool.or_eq_true] at differs ⊢
          exact differs.imp_right ih

theorem not_prefix_of_differ (differs : differ text pattern = true) : ¬ pattern <+: text := by
  induction text generalizing pattern with
  | nil => simp [differ] at differs
  | cons c rest ih =>
      cases pattern with
      | nil => simp [differ] at differs
      | cons d others =>
          rw [List.cons_prefix_cons]
          rintro ⟨rfl, begins⟩
          simp only [differ, ne_eq, not_true_eq_false, decide_false, Bool.false_or] at differs
          exact ih differs begins

theorem isGuarded_append (first : isGuarded front = true) (second : isGuarded back = true) :
    isGuarded (front ++ back) = true := by
  induction front with
  | nil => exact second
  | cons c rest ih =>
      simp only [isGuarded, Bool.and_eq_true] at first
      simp only [List.cons_append, isGuarded, Bool.and_eq_true]
      refine ⟨?_, ih first.2⟩
      rw [← List.cons_append, List.map_append]
      exact differ_append first.1

theorem isGuarded_flatMap {item : Type} {items : List item} {f : item → List Char}
    (all : ∀ one ∈ items, isGuarded (f one) = true) : isGuarded (items.flatMap f) = true := by
  induction items with
  | nil => rfl
  | cons one rest ih =>
      rw [List.flatMap_cons]
      exact isGuarded_append (all one (by simp)) (ih fun other member => all other (by simp [member]))

theorem not_endsScript_of_isGuarded (guarded : isGuarded text = true) : ¬ EndsScript text := by
  induction text with
  | nil => exact not_endsScript_nil
  | cons c rest ih =>
      simp only [isGuarded, Bool.and_eq_true] at guarded
      rw [EndsScript, List.map_cons, List.infix_cons_iff]
      rintro (begins | later)
      · exact not_prefix_of_differ guarded.1 begins
      · exact ih guarded.2 later

/-- Only letters have another case. -/
theorem toLower_eq_iff {d : Char} (other : d.isAlpha = false) : c.toLower = d ↔ c = d := by
  by_cases upper : c.isUpper = true
  · have letter : c.isAlpha = true := (Bool.or_eq_true _ _).mpr (.inl upper)
    constructor
    · rintro rfl
      rw [Char.isAlpha_toLower_eq_isAlpha, letter] at other
      contradiction
    · rintro rfl
      rw [letter] at other
      contradiction
  · rw [Char.toLower_eq_of_not_isUpper upper]

theorem differ_closing {rest : List Char} (other : c ≠ '<') :
    differ ((c :: rest).map Char.toLower) closing = true := by
  have lower : c.toLower ≠ '<' := by
    rw [ne_eq, toLower_eq_iff (by decide)]
    exact other
  simp [differ, closing, lower]

theorem isGuarded_of_absent (absent : '<' ∉ text) : isGuarded text = true := by
  induction text with
  | nil => rfl
  | cons c rest ih =>
      have other : c ≠ '<' := by
        rintro rfl
        exact absent (by simp)
      have later := ih fun member => absent (List.mem_cons_of_mem c member)
      rw [isGuarded, differ_closing other, later]
      rfl

theorem head_guardTags : (Json.guardTags text).head? = text.head? := by
  unfold Json.guardTags
  split <;> rfl

theorem guardTags_cons_of_apart {rest : List Char}
    (apart : ∀ more, c = '<' → rest = '/' :: more → False) :
    Json.guardTags (c :: rest) = c :: Json.guardTags rest := by
  rw [Json.guardTags]
  exact apart

/-- No slash is left behind an opening bracket. -/
theorem not_infix_guardTags (text : List Char) : ¬ ['<', '/'] <:+: Json.guardTags text := by
  induction text using Json.guardTags.induct with
  | case1 rest ih =>
      rw [Json.guardTags, List.infix_cons_iff, List.infix_cons_iff, List.infix_cons_iff]
      rintro (begins | begins | begins | later)
      · simp at begins
      · simp at begins
      · simp at begins
      · exact ih later
  | case2 c rest apart ih =>
      rw [guardTags_cons_of_apart apart, List.infix_cons_iff, List.cons_prefix_cons]
      rintro (⟨opens, slash⟩ | later)
      · obtain ⟨behind, shape⟩ := slash
        have head : rest.head? = some '/' := by rw [← head_guardTags, ← shape]; rfl
        obtain ⟨more, rfl⟩ := List.head?_eq_some_iff.mp head
        exact apart more opens.symm rfl
      · exact ih later
  | case3 => simp [Json.guardTags]

theorem getLast?_ne_of_cons {d : Char} (last : (c :: text).getLast? ≠ some d) :
    text.getLast? ≠ some d := by
  cases text with
  | nil => simp
  | cons e more => simpa [List.getLast?_cons_cons] using last

/-- Every `</` in a guarded text is taken apart; only a `<` at the end is left open. -/
theorem isGuarded_guardTags (last : text.getLast? ≠ some '<') :
    isGuarded (Json.guardTags text) = true := by
  induction text using Json.guardTags.induct with
  | case1 rest ih =>
      have later := ih (getLast?_ne_of_cons (getLast?_ne_of_cons last))
      simp [Json.guardTags, isGuarded, differ, closing, later]
  | case2 c rest apart ih =>
      have later := ih (getLast?_ne_of_cons last)
      have differs : differ ((c :: Json.guardTags rest).map Char.toLower) closing = true := by
        by_cases opens : c = '<'
        -- A `<` that is left alone is not the last character, and no slash follows it.
        · subst opens
          cases rest with
          | nil => simp at last
          | cons d more =>
              have other : d.toLower ≠ '/' := by
                rw [ne_eq, toLower_eq_iff (by decide)]
                exact fun same => apart more rfl (by rw [same])
              have head : (Json.guardTags (d :: more)).head? = (d :: more).head? := head_guardTags
              rw [List.head?_cons] at head
              obtain ⟨tail, shape⟩ := List.head?_eq_some_iff.mp head
              simp [shape, differ, closing, other]
        · exact differ_closing opens
      rw [guardTags_cons_of_apart apart, isGuarded, differs, later]
      rfl
  | case3 => rfl

/-- Whether a text is guarded, as the text of a string. -/
def Guarded (text : String) : Prop := isGuarded text.toList = true

/-- A text that is written out is read off its characters, without decoding its bytes. -/
theorem Guarded.ofList {chars : List Char} (guarded : isGuarded chars = true) :
    Guarded (String.ofList chars) := by
  rw [Guarded, String.toList_ofList]
  exact guarded

theorem Guarded.not_endsScript {text : String} (guarded : Guarded text) :
    ¬ EndsScript text.toList :=
  not_endsScript_of_isGuarded guarded

theorem Guarded.append {front back : String} (first : Guarded front) (second : Guarded back) :
    Guarded (front ++ back) := by
  rw [Guarded, String.toList_append]
  exact isGuarded_append first second

theorem Guarded.intercalate {separator : String} {parts : List String}
    (between : Guarded separator) (all : parts.Forall Guarded) :
    Guarded (String.intercalate separator parts) := by
  rw [Guarded, String.toList_intercalate]
  induction parts with
  | nil => rfl
  | cons part rest ih =>
      obtain ⟨own, others⟩ := (List.forall_cons _ part rest).mp all
      have later := ih others
      cases rest with
      | nil =>
          rw [List.map_singleton, List.intercalate_singleton]
          exact own
      | cons next others =>
          rw [List.map_cons, List.map_cons, List.intercalate_cons_cons]
          exact isGuarded_append (isGuarded_append own between) later

theorem Guarded.join {parts : List String} (all : ∀ part ∈ parts, Guarded part) :
    Guarded (String.join parts) := by
  rw [Guarded, String.toList_join]
  exact isGuarded_flatMap all

end LinkedViews.Text
