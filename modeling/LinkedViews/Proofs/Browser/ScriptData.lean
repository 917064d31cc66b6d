import LinkedViews.Proofs.Json.Strings
import LinkedViews.Proofs.Table.RecordsText

/-!
How a page is read inside a script element. A comment mark `<!--` starts an escaped part in which an
opening tag of a script begins a nested part (the double escaped script data of the standard), and
there a closing tag ends nothing but that part. A text without any `</` is therefore left in a nested
part exactly if a comment mark in it is not closed again and an opening tag of a script follows it.
-/

namespace LinkedViews

namespace Browser

namespace ScriptData

/-! ## The reader -/

/-- Where the reader of a script element is; the letters of a tag are kept as far as they are read.
The last state is reached by the closing tag of the element and never left. -/
inductive State where
  | data
  | dataMark
  | dataSlash
  | dataName (name : List Char)
  | start
  | startDash
  | escaped
  | escapedDash
  | escapedDashes
  | escapedMark
  | escapedSlash
  | escapedName (name : List Char)
  | nesting (name : List Char)
  | nested
  | nestedDash
  | nestedDashes
  | nestedMark
  | unnesting (name : List Char)
  | closed
deriving DecidableEq, Repr

/-- The characters that end the name of a tag. -/
def endsName (c : Char) : Bool := c ∈ ['\t', '\n', '\x0c', ' ', '/', '>']

def isScript (name : List Char) : Bool := name.map Char.toLower = ['s', 'c', 'r', 'i', 'p', 't']

def dataStep (c : Char) : State := if c = '<' then .dataMark else .data

def escapedStep (c : Char) : State :=
  if c = '-' then .escapedDash else if c = '<' then .escapedMark else .escaped

def nestedStep (c : Char) : State :=
  if c = '-' then .nestedDash else if c = '<' then .nestedMark else .nested

def step : State → Char → State
  | .data, c => dataStep c
  | .dataMark, c => if c = '/' then .dataSlash else if c = '!' then .start else dataStep c
  | .dataSlash, c => if c.isAlpha then .dataName [c] else dataStep c
  | .dataName name, c =>
    if c.isAlpha then .dataName (name ++ [c])
    else if endsName c && isScript name then .closed else dataStep c
  | .start, c => if c = '-' then .startDash else dataStep c
  | .startDash, c => if c = '-' then .escapedDashes else dataStep c
  | .escaped, c => escapedStep c
  | .escapedDash, c => if c = '-' then .escapedDashes else escapedStep c
  | .escapedDashes, c =>
    if c = '-' then .escapedDashes else if c = '>' then .data else escapedStep c
  | .escapedMark, c =>
    if c = '/' then .escapedSlash else if c.isAlpha then .nesting [c] else escapedStep c
  | .escapedSlash, c => if c.isAlpha then .escapedName [c] else escapedStep c
  | .escapedName name, c =>
    if c.isAlpha then .escapedName (name ++ [c])
    else if endsName c && isScript name then .closed else escapedStep c
  | .nesting name, c =>
    if c.isAlpha then .nesting (name ++ [c])
    else if endsName c then (if isScript name then .nested else .escaped) else escapedStep c
  | .nested, c => nestedStep c
  | .nestedDash, c => if c = '-' then .nestedDashes else nestedStep c
  | .nestedDashes, c =>
    if c = '-' then .nestedDashes else if c = '>' then .data else nestedStep c
  | .nestedMark, c => if c = '/' then .unnesting [] else nestedStep c
  | .unnesting name, c =>
    if c.isAlpha then .unnesting (name ++ [c])
    else if endsName c then (if isScript name then .escaped else .nested) else nestedStep c
  | .closed, _ => .closed

def after (state : State) (text : List Char) : State := text.foldl step state

def closingTag : List Char := ['<', '/', 's', 'c', 'r', 'i', 'p', 't', '>']

inductive Level where
  | data
  | escaped
  | nested
deriving DecidableEq, Repr

def State.level : State → Level
  | data | dataMark | dataSlash | dataName _ | start | startDash | closed => .data
  | escaped | escapedDash | escapedDashes | escapedMark | escapedSlash | escapedName _ | nesting _ =>
    .escaped
  | nested | nestedDash | nestedDashes | nestedMark | unnesting _ => .nested

/-- What has been read of a mark or a tag. -/
def State.behind : State → List Char
  | data | escaped | nested | closed => []
  | dataMark | escapedMark | nestedMark => ['<']
  | start => ['<', '!']
  | startDash => ['<', '!', '-']
  | escapedDash | nestedDash => ['-']
  | escapedDashes | nestedDashes => ['-', '-']
  | nesting name => '<' :: name
  | dataSlash | escapedSlash => ['<', '/']
  | dataName name | escapedName name | unnesting name => '<' :: '/' :: name

/-- The states of a text without any `</`. -/
def State.IsOpen : State → Prop
  | dataSlash | dataName _ | escapedSlash | escapedName _ | unnesting _ | closed => False
  | nesting name => ∀ c ∈ name, c.isAlpha = true
  | _ => True

/-! ## Marks -/

variable {p : List Char → Prop} {c d : Char} {name rest text : List Char} {state : State}
  {level : Level}

/-- Whether a property holds of some part at the end of a text. -/
def Somewhere (p : List Char → Prop) (text : List Char) : Prop := ∃ rest, rest <:+ text ∧ p rest

theorem somewhere_cons : Somewhere p (c :: text) ↔ p (c :: text) ∨ Somewhere p text := by
  simp only [Somewhere, List.suffix_cons_iff, or_and_right, exists_or, exists_eq_left]

def Closes (text : List Char) : Prop := ['-', '-', '>'] <+: text

def OpensScript (text : List Char) : Prop :=
  ∃ name c rest, text = '<' :: name ++ c :: rest ∧ isScript name = true ∧ endsName c = true

/-- Whether a text begins with a comment mark that is not closed again, with an opening tag of a
script behind it. -/
def Nests (text : List Char) : Prop :=
  ∃ rest, text = '<' :: '!' :: '-' :: '-' :: rest ∧ ¬ Somewhere Closes ('-' :: '-' :: rest) ∧
    Somewhere OpensScript rest

/-- Whether what is left of a text, read from a level on, ends in a nested part. -/
def EndsNested : Level → List Char → Prop
  | .data, text => Somewhere Nests text
  | .escaped, text =>
    (¬ Somewhere Closes text ∧ Somewhere OpensScript text) ∨ Somewhere Nests text
  | .nested, text => ¬ Somewhere Closes text ∨ Somewhere Nests text

theorem not_closes (other : c ≠ '-') : ¬ Closes (c :: text) := by
  intro closes
  exact other (List.cons_prefix_cons.mp closes).1.symm

theorem not_opensScript (other : c ≠ '<') : ¬ OpensScript (c :: text) := by
  rintro ⟨name, d, rest, shape, _⟩
  exact other (List.cons.inj shape).1

theorem not_nests (other : c ≠ '<') : ¬ Nests (c :: text) := by
  rintro ⟨rest, shape, _⟩
  exact other (List.cons.inj shape).1

/-- A comment mark is an escaped part already, and so it makes no difference within one. -/
theorem Nests.tail (nests : Nests (c :: text)) :
    ¬ Somewhere Closes text ∧ Somewhere OpensScript text := by
  obtain ⟨rest, shape, unclosed, opens⟩ := nests
  rw [(List.cons.inj shape).2]
  constructor
  · rw [somewhere_cons]
    exact not_or.mpr ⟨not_closes (by decide), unclosed⟩
  · exact somewhere_cons.mpr (.inr (somewhere_cons.mpr (.inr (somewhere_cons.mpr (.inr opens)))))

theorem endsNested_data_cons (none : ¬ Nests (c :: text)) :
    EndsNested .data (c :: text) ↔ EndsNested .data text := by
  rw [EndsNested, EndsNested, somewhere_cons]
  simp only [none, false_or]

theorem endsNested_escaped_cons (unclosed : ¬ Closes (c :: text))
    (unopened : ¬ OpensScript (c :: text)) :
    EndsNested .escaped (c :: text) ↔ EndsNested .escaped text := by
  rw [EndsNested, EndsNested, somewhere_cons, somewhere_cons, somewhere_cons]
  simp only [unclosed, unopened, false_or]
  constructor
  · rintro (inside | nests | later)
    · exact .inl inside
    · exact .inl nests.tail
    · exact .inr later
  · exact .imp_right .inr

theorem endsNested_nested_cons (unclosed : ¬ Closes (c :: text)) :
    EndsNested .nested (c :: text) ↔ EndsNested .nested text := by
  rw [EndsNested, EndsNested, somewhere_cons, somewhere_cons]
  simp only [unclosed, false_or]
  constructor
  · rintro (inside | nests | later)
    · exact .inl inside
    · exact .inl nests.tail.1
    · exact .inr later
  · exact .imp_right .inr

/-- Only the end of a comment begins with anything but a `<`. -/
theorem endsNested_cons_of_unclosed (noMark : c ≠ '<') (unclosed : ¬ Closes (c :: text)) :
    EndsNested level (c :: text) ↔ EndsNested level text := by
  cases level with
  | data => exact endsNested_data_cons (not_nests noMark)
  | escaped => exact endsNested_escaped_cons unclosed (not_opensScript noMark)
  | nested => exact endsNested_nested_cons unclosed

/-- Only two characters begin anything. -/
theorem endsNested_cons (noMark : c ≠ '<') (noDash : c ≠ '-') :
    EndsNested level (c :: text) ↔ EndsNested level text :=
  endsNested_cons_of_unclosed noMark (not_closes noDash)

/-- What does not go on as a comment mark is none. -/
theorem endsNested_mark {begun : List Char}
    (part : begun = ['<'] ∨ begun = ['<', '!'] ∨ begun = ['<', '!', '-'])
    (other : ¬ begun ++ [c] <+: ['<', '!', '-', '-']) :
    EndsNested .data (begun ++ c :: text) ↔ EndsNested .data (c :: text) := by
  have none : ¬ Nests (begun ++ c :: text) := by
    rintro ⟨rest, shape, _⟩
    obtain rfl | rfl | rfl := part <;> simp_all
  obtain rfl | rfl | rfl := part
  · exact endsNested_data_cons none
  · exact (endsNested_data_cons none).trans (endsNested_data_cons (not_nests (by decide)))
  · exact (endsNested_data_cons none).trans
      ((endsNested_data_cons (not_nests (by decide))).trans
        (endsNested_data_cons (not_nests (by decide))))

theorem endsNested_dash (noDash : c ≠ '-') :
    EndsNested level ('-' :: c :: text) ↔ EndsNested level (c :: text) := by
  refine endsNested_cons_of_unclosed (by decide) fun closes => ?_
  have second := (List.cons_prefix_cons.mp (List.cons_prefix_cons.mp closes).2).1
  exact noDash second.symm

theorem endsNested_dashes (noEnd : c ≠ '>') :
    EndsNested level ('-' :: '-' :: c :: text) ↔ EndsNested level ('-' :: c :: text) := by
  refine endsNested_cons_of_unclosed (by decide) fun closes => ?_
  have behind := (List.cons_prefix_cons.mp (List.cons_prefix_cons.mp closes).2).2
  exact noEnd (List.cons_prefix_cons.mp behind).1.symm

theorem endsNested_closed (escaped : level ≠ .data) :
    EndsNested level ('-' :: '-' :: '>' :: text) ↔ EndsNested .data text := by
  have closes : Somewhere Closes ('-' :: '-' :: '>' :: text) :=
    ⟨_, List.suffix_rfl, List.prefix_append ['-', '-', '>'] text⟩
  have later : Somewhere Nests ('-' :: '-' :: '>' :: text) ↔ Somewhere Nests text := by
    simp only [somewhere_cons, not_nests (show '-' ≠ '<' by decide),
      not_nests (show '>' ≠ '<' by decide), false_or]
  cases level with
  | data => exact absurd rfl escaped
  | escaped =>
      rw [EndsNested, EndsNested, later]
      exact or_iff_right fun inside => inside.1 closes
  | nested =>
      rw [EndsNested, EndsNested, later]
      exact or_iff_right fun unclosed => unclosed closes

theorem endsNested_start :
    EndsNested .data ('<' :: '!' :: '-' :: '-' :: text) ↔
      EndsNested .escaped ('-' :: '-' :: text) := by
  have own : Nests ('<' :: '!' :: '-' :: '-' :: text) ↔
      ¬ Somewhere Closes ('-' :: '-' :: text) ∧ Somewhere OpensScript text := by
    constructor
    · rintro ⟨rest, shape, unclosed, opens⟩
      obtain rfl : text = rest := by simpa using shape
      exact ⟨unclosed, opens⟩
    · exact fun inside => ⟨text, rfl, inside⟩
  have opens : Somewhere OpensScript ('-' :: '-' :: text) ↔ Somewhere OpensScript text := by
    simp only [somewhere_cons, not_opensScript (show '-' ≠ '<' by decide), false_or]
  have later : Somewhere Nests ('!' :: '-' :: '-' :: text) ↔ Somewhere Nests ('-' :: '-' :: text) := by
    rw [somewhere_cons]
    exact or_iff_right (not_nests (by decide))
  rw [EndsNested, somewhere_cons, own, later, EndsNested, opens]

/-! ### Names of tags -/

theorem isAlpha_of_isScript (script : isScript name = true) : ∀ c ∈ name, c.isAlpha = true := by
  intro c member
  have letters : ∀ c ∈ ['s', 'c', 'r', 'i', 'p', 't'], c.isAlpha = true := by simp
  have lower : c.toLower ∈ ['s', 'c', 'r', 'i', 'p', 't'] :=
    of_decide_eq_true script ▸ List.mem_map_of_mem member
  rw [← Char.isAlpha_toLower_eq_isAlpha]
  exact letters _ lower

theorem not_isAlpha_of_endsName (ends : endsName c = true) : c.isAlpha = false := by
  have marks : ∀ c ∈ ['\t', '\n', '\x0c', ' ', '/', '>'], c.isAlpha = false := by simp
  exact marks c (of_decide_eq_true ends)

theorem ne_of_isAlpha (letter : c.isAlpha = true) (other : d.isAlpha = false) : c ≠ d := by
  rintro rfl
  rw [letter] at other
  contradiction

theorem takeWhile_letters (letters : ∀ c ∈ name, c.isAlpha = true) (ends : c.isAlpha = false) :
    (name ++ c :: rest).takeWhile Char.isAlpha = name := by
  rw [List.takeWhile_append_of_pos letters, List.takeWhile_cons_of_neg (by simp [ends]),
    List.append_nil]

/-- The name of a tag reaches up to the first character that is no letter. -/
theorem opensScript_iff (letters : ∀ c ∈ name, c.isAlpha = true) (ends : c.isAlpha = false) :
    OpensScript ('<' :: name ++ c :: text) ↔ isScript name = true ∧ endsName c = true := by
  constructor
  · rintro ⟨other, d, rest, shape, script, mark⟩
    have same : name ++ c :: text = other ++ d :: rest := (List.cons.inj shape).2
    have own : (name ++ c :: text).takeWhile Char.isAlpha = name := takeWhile_letters letters ends
    rw [same, takeWhile_letters (isAlpha_of_isScript script) (not_isAlpha_of_endsName mark)] at own
    rw [own] at same script
    rw [(List.cons.inj (List.append_cancel_left same)).1]
    exact ⟨script, mark⟩
  · exact fun both => ⟨name, c, text, rfl, both⟩

theorem endsNested_letters (letters : ∀ c ∈ name, c.isAlpha = true) :
    EndsNested level (name ++ text) ↔ EndsNested level text := by
  induction name with
  | nil => rfl
  | cons c rest ih =>
      have letter : c.isAlpha = true := letters c List.mem_cons_self
      rw [List.cons_append, endsNested_cons (ne_of_isAlpha letter (by decide))
        (ne_of_isAlpha letter (by decide))]
      exact ih fun d member => letters d (List.mem_cons_of_mem c member)

/-- A tag of another name is nothing, and neither is a part of a name. -/
theorem endsNested_tag (letters : ∀ c ∈ name, c.isAlpha = true) (ends : c.isAlpha = false)
    (other : ¬ (isScript name = true ∧ endsName c = true)) :
    EndsNested .escaped ('<' :: name ++ c :: text) ↔ EndsNested .escaped (c :: text) := by
  rw [List.cons_append, endsNested_escaped_cons (not_closes (by decide)), endsNested_letters letters]
  rw [← List.cons_append, opensScript_iff letters ends]
  exact other

theorem endsNested_script (script : isScript name = true) (ends : endsName c = true) :
    EndsNested .escaped ('<' :: name ++ c :: text) ↔ EndsNested .nested text := by
  have letters := isAlpha_of_isScript script
  have mark := not_isAlpha_of_endsName ends
  have opens : Somewhere OpensScript ('<' :: name ++ c :: text) :=
    ⟨_, List.suffix_rfl, (opensScript_iff letters mark).mpr ⟨script, ends⟩⟩
  have both : EndsNested .escaped ('<' :: name ++ c :: text) ↔
      EndsNested .nested ('<' :: name ++ c :: text) := by
    rw [EndsNested, EndsNested, and_iff_left opens]
  have solid : c ≠ '<' ∧ c ≠ '-' := by
    constructor <;> rintro rfl <;> contradiction
  rw [both, List.cons_append, endsNested_nested_cons (not_closes (by decide)),
    endsNested_letters letters, endsNested_cons solid.1 solid.2]

/-! ## Steps -/

/-- What is expected of a text that is read from a state on. -/
def State.EndsNested (state : State) (text : List Char) : Prop :=
  ScriptData.EndsNested state.level (state.behind ++ text)

theorem endsNested_dataStep :
    (dataStep c).EndsNested text ↔ EndsNested .data (c :: text) := by
  unfold dataStep
  split
  · rename_i mark
    rw [mark]
    rfl
  · rename_i other
    exact (endsNested_data_cons (not_nests other)).symm

theorem endsNested_escapedStep :
    (escapedStep c).EndsNested text ↔ EndsNested .escaped (c :: text) := by
  unfold escapedStep
  split
  · rename_i dash
    rw [dash]
    rfl
  · rename_i noDash
    split
    · rename_i mark
      rw [mark]
      rfl
    · rename_i other
      exact (endsNested_cons other noDash).symm

theorem endsNested_nestedStep :
    (nestedStep c).EndsNested text ↔ EndsNested .nested (c :: text) := by
  unfold nestedStep
  split
  · rename_i dash
    rw [dash]
    rfl
  · rename_i noDash
    split
    · rename_i mark
      rw [mark]
      rfl
    · rename_i other
      exact (endsNested_cons other noDash).symm

theorem isOpen_dataStep : (dataStep c).IsOpen := by
  unfold dataStep
  split <;> trivial

theorem isOpen_escapedStep : (escapedStep c).IsOpen := by
  unfold escapedStep
  split <;> [trivial; (split <;> trivial)]

theorem isOpen_nestedStep : (nestedStep c).IsOpen := by
  unfold nestedStep
  split <;> [trivial; (split <;> trivial)]

theorem step_spec (isOpen : state.IsOpen) (noSlash : state.behind = ['<'] → c ≠ '/') :
    (step state c).IsOpen ∧ ((step state c).EndsNested text ↔ state.EndsNested (c :: text)) := by
  cases state with
  | dataSlash | dataName | escapedSlash | escapedName | unnesting | closed => contradiction
  | data => exact ⟨isOpen_dataStep, endsNested_dataStep⟩
  | escaped => exact ⟨isOpen_escapedStep, endsNested_escapedStep⟩
  | nested => exact ⟨isOpen_nestedStep, endsNested_nestedStep⟩
  | dataMark =>
      rw [step, if_neg (noSlash rfl)]
      split
      · rename_i bang
        rw [bang]
        exact ⟨trivial, Iff.rfl⟩
      · rename_i other
        have none : EndsNested .data (['<'] ++ c :: text) ↔ EndsNested .data (c :: text) :=
          endsNested_mark (.inl rfl) (by simp [other])
        exact ⟨isOpen_dataStep, endsNested_dataStep.trans none.symm⟩
  | start =>
      rw [step]
      split
      · rename_i dash
        rw [dash]
        exact ⟨trivial, Iff.rfl⟩
      · rename_i other
        have none : EndsNested .data (['<', '!'] ++ c :: text) ↔ EndsNested .data (c :: text) :=
          endsNested_mark (.inr (.inl rfl)) (by simp [other])
        exact ⟨isOpen_dataStep, endsNested_dataStep.trans none.symm⟩
  | startDash =>
      rw [step]
      split
      · rename_i dash
        rw [dash]
        exact ⟨trivial, endsNested_start.symm⟩
      · rename_i other
        have none : EndsNested .data (['<', '!', '-'] ++ c :: text) ↔ EndsNested .data (c :: text) :=
          endsNested_mark (.inr (.inr rfl)) (by simp [other])
        exact ⟨isOpen_dataStep, endsNested_dataStep.trans none.symm⟩
  | escapedDash =>
      rw [step]
      split
      · rename_i dash
        rw [dash]
        exact ⟨trivial, Iff.rfl⟩
      · rename_i other
        exact ⟨isOpen_escapedStep, endsNested_escapedStep.trans (endsNested_dash other).symm⟩
  | nestedDash =>
      rw [step]
      split
      · rename_i dash
        rw [dash]
        exact ⟨trivial, Iff.rfl⟩
      · rename_i other
        exact ⟨isOpen_nestedStep, endsNested_nestedStep.trans (endsNested_dash other).symm⟩
  | escapedDashes =>
      rw [step]
      split
      · rename_i dash
        rw [dash]
        exact ⟨trivial, (endsNested_dashes (by decide)).symm⟩
      · rename_i other
        split
        · rename_i closes
          rw [closes]
          exact ⟨trivial, (endsNested_closed (by decide)).symm⟩
        · rename_i stays
          have passed : EndsNested .escaped ('-' :: '-' :: c :: text) ↔
              EndsNested .escaped (c :: text) :=
            (endsNested_dashes stays).trans (endsNested_dash other)
          exact ⟨isOpen_escapedStep, endsNested_escapedStep.trans passed.symm⟩
  | nestedDashes =>
      rw [step]
      split
      · rename_i dash
        rw [dash]
        exact ⟨trivial, (endsNested_dashes (by decide)).symm⟩
      · rename_i other
        split
        · rename_i closes
          rw [closes]
          exact ⟨trivial, (endsNested_closed (by decide)).symm⟩
        · rename_i stays
          have passed : EndsNested .nested ('-' :: '-' :: c :: text) ↔
              EndsNested .nested (c :: text) :=
            (endsNested_dashes stays).trans (endsNested_dash other)
          exact ⟨isOpen_nestedStep, endsNested_nestedStep.trans passed.symm⟩
  | escapedMark =>
      rw [step, if_neg (noSlash rfl)]
      split
      · rename_i letter
        exact ⟨fun d member => by rw [List.mem_singleton.mp member, letter], Iff.rfl⟩
      · rename_i noLetter
        have none : EndsNested .escaped ('<' :: [] ++ c :: text) ↔
            EndsNested .escaped (c :: text) :=
          endsNested_tag (fun _ member => by contradiction)
            (Bool.eq_false_of_not_eq_true noLetter) (by simp [isScript])
        exact ⟨isOpen_escapedStep, endsNested_escapedStep.trans none.symm⟩
  | nestedMark =>
      rw [step, if_neg (noSlash rfl)]
      have passed : EndsNested .nested ('<' :: c :: text) ↔ EndsNested .nested (c :: text) :=
        endsNested_nested_cons (not_closes (by decide))
      exact ⟨isOpen_nestedStep, endsNested_nestedStep.trans passed.symm⟩
  | nesting name =>
      have letters : ∀ c ∈ name, c.isAlpha = true := isOpen
      rw [step]
      split
      · rename_i letter
        refine ⟨fun d member => ?_, ?_⟩
        · cases List.mem_append.mp member with
          | inl own => exact letters d own
          | inr last => rw [List.mem_singleton.mp last, letter]
        · have joined : '<' :: (name ++ [c]) ++ text = '<' :: name ++ c :: text := by simp
          rw [State.EndsNested, State.EndsNested, State.behind, State.behind, joined]
          rfl
      · rename_i noLetter
        have ends := Bool.eq_false_of_not_eq_true noLetter
        split
        · rename_i mark
          split
          · rename_i script
            exact ⟨trivial, (endsNested_script script mark).symm⟩
          · rename_i other
            have passed : EndsNested .escaped ('<' :: name ++ c :: text) ↔
                EndsNested .escaped (c :: text) := endsNested_tag letters ends (other ·.1)
            have solid : c ≠ '<' ∧ c ≠ '-' := by constructor <;> rintro rfl <;> contradiction
            exact ⟨trivial, (passed.trans (endsNested_cons solid.1 solid.2)).symm⟩
        · rename_i noMark
          have passed : EndsNested .escaped ('<' :: name ++ c :: text) ↔
              EndsNested .escaped (c :: text) := endsNested_tag letters ends (noMark ·.2)
          exact ⟨isOpen_escapedStep, endsNested_escapedStep.trans passed.symm⟩

/-- Only behind the character itself a tag can begin. -/
theorem eq_of_mark_step (mark : (step state c).behind = ['<']) : c = '<' := by
  by_contra other
  have data : (dataStep c).behind ≠ ['<'] := by
    rw [dataStep, if_neg other]
    decide
  have escaped : (escapedStep c).behind ≠ ['<'] := by
    rw [escapedStep, if_neg other]
    split <;> decide
  have nested : (nestedStep c).behind ≠ ['<'] := by
    rw [nestedStep, if_neg other]
    split <;> decide
  -- Whatever is no part of a mark or a name is read as it is read on the level itself.
  unfold step at mark
  split at mark
  all_goals
    try split_ifs at mark
    all_goals first
      | exact data mark
      | exact escaped mark
      | exact nested mark
      | simp [State.behind] at mark

/-! ## Runs -/

theorem after_append (state : State) (front back : List Char) :
    after state (front ++ back) = after (after state front) back := List.foldl_append

theorem mem_of_nests (nests : Somewhere Nests text) : '!' ∈ text ∧ 4 ≤ text.length := by
  obtain ⟨back, suffix, rest, rfl, _⟩ := nests
  have least := suffix.length_le
  rw [List.length_cons, List.length_cons, List.length_cons, List.length_cons] at least
  exact ⟨suffix.subset (by simp), by omega⟩

theorem mem_of_closes (closes : Somewhere Closes text) : '>' ∈ text := by
  obtain ⟨back, suffix, begins⟩ := closes
  exact suffix.subset (begins.subset (by simp))

theorem mem_of_opensScript (opens : Somewhere OpensScript text) : ∃ c ∈ text, endsName c = true := by
  obtain ⟨back, suffix, name, c, rest, rfl, _, ends⟩ := opens
  exact ⟨c, suffix.subset (by simp), ends⟩

theorem endsNested_nil (isOpen : state.IsOpen) : state.EndsNested [] ↔ state.level = .nested := by
  rw [State.EndsNested, List.append_nil]
  have short : state.level = .data → ¬ Somewhere Nests state.behind := by
    intro data nests
    have long := (mem_of_nests nests).2
    cases state with
    | data | dataMark | start | startDash => simp [State.behind] at long
    | _ => contradiction
  have letters : state.level = .escaped → ∀ c ∈ state.behind, c ≠ '!' ∧ endsName c = false := by
    intro escaped c member
    cases state with
    | escaped => contradiction
    | escapedDash | escapedDashes | escapedMark =>
        simp [State.behind] at member
        subst member
        decide
    | nesting name =>
        cases List.mem_cons.mp member with
        | inl mark => subst mark; decide
        | inr inside =>
            have letter : c.isAlpha = true := isOpen c inside
            refine ⟨ne_of_isAlpha letter (by decide), ?_⟩
            by_contra ends
            rw [not_isAlpha_of_endsName (Bool.eq_true_of_not_eq_false ends)] at letter
            contradiction
    | _ => contradiction
  cases level : state.level with
  | data => exact iff_of_false (short level) (by decide)
  | escaped =>
      refine iff_of_false ?_ (by decide)
      rintro (inside | nests)
      · obtain ⟨c, member, ends⟩ := mem_of_opensScript inside.2
        rw [(letters level c member).2] at ends
        contradiction
      · exact (letters level '!' (mem_of_nests nests).1).1 rfl
  | nested =>
      refine iff_of_true (.inl fun closes => ?_) rfl
      have mark := mem_of_closes closes
      cases state with
      | nested | nestedDash | nestedDashes | nestedMark => simp [State.behind] at mark
      | unnesting => exact isOpen.elim
      | _ => exact Level.noConfusion level

/-- A text without any `</` is read without a closing tag, and what is left of it tells where its
reader ends. -/
theorem after_spec (isOpen : state.IsOpen) (noTag : ¬ ['<', '/'] <:+: text)
    (noSlash : state.behind = ['<'] → text.head? ≠ some '/') :
    (after state text).IsOpen ∧ ((after state text).level = .nested ↔ state.EndsNested text) := by
  induction text generalizing state with
  | nil => exact ⟨isOpen, (endsNested_nil isOpen).symm⟩
  | cons c rest ih =>
      have apart : state.behind = ['<'] → c ≠ '/' := by
        intro mark slash
        exact noSlash mark (by rw [slash]; rfl)
      obtain ⟨next, same⟩ : (step state c).IsOpen ∧
          ((step state c).EndsNested rest ↔ state.EndsNested (c :: rest)) := step_spec isOpen apart
      rw [List.infix_cons_iff, not_or] at noTag
      have later : (step state c).behind = ['<'] → rest.head? ≠ some '/' := by
        intro mark slash
        obtain rfl := eq_of_mark_step mark
        obtain ⟨more, rfl⟩ := List.head?_eq_some_iff.mp slash
        exact noTag.1 (List.prefix_append ['<', '/'] more)
      obtain ⟨final, nested⟩ := ih next noTag.2 later
      exact ⟨final, nested.trans same⟩

theorem State.IsOpen.ne_closed (isOpen : state.IsOpen) : state ≠ .closed := by
  rintro rfl
  exact isOpen

theorem step_mark (inside : state ≠ .closed) :
    step state '<' = match state.level with
      | .data => .dataMark
      | .escaped => .escapedMark
      | .nested => .nestedMark := by
  cases state <;> first | rfl | contradiction

/-- A closing tag closes the element everywhere but in a nested part, which is all that it ends. -/
theorem after_closingTag (inside : state ≠ .closed) :
    after state closingTag = if state.level = .nested then .escaped else .closed := by
  rw [closingTag, after, List.foldl_cons, step_mark inside]
  cases state.level with
  | data => decide
  | escaped => decide
  | nested => decide

/-- A character that belongs to no mark leaves nothing but the level. -/
theorem step_bracket (isOpen : state.IsOpen) :
    step state ']' = match state.level with
      | .data => .data
      | .escaped => .escaped
      | .nested => .nested := by
  cases state <;> first | rfl | contradiction

def commentMark : List Char := ['<', '!', '-', '-']

theorem isInfix_commentMark (nests : Somewhere Nests text) : commentMark <:+: text := by
  obtain ⟨back, suffix, rest, rfl, _⟩ := nests
  exact (List.prefix_append commentMark rest).isInfix.trans suffix.isInfix

end ScriptData

end Browser

/-! ## Records -/

namespace Table

open Browser.ScriptData

theorem exists_bracket (table : Table) : ∃ front, table.recordsText.toList = front ++ [']'] := by
  rw [recordsText, Json.scriptText, String.toList_ofList, records_eq, Json.compactChars,
    Json.guardTags_enclosed _ (by decide) (by decide) (by decide)]
  exact ⟨_, rfl⟩

/-- While the records are read no closing tag is found, and the closing tag behind them closes the
element unless they end in a nested part: that takes a comment mark that is not closed again, with
an opening tag of a script behind it, and so a string of the records with a comment mark in it. -/
theorem after_recordsText (table : Table) :
    (∀ front, front <+: table.recordsText.toList → after .data front ≠ .closed) ∧
      (after .data table.recordsText.toList = .nested ↔
        Somewhere Nests table.recordsText.toList) ∧
      (after .data (table.recordsText.toList ++ closingTag) = .closed ↔
        after .data table.recordsText.toList ≠ .nested) ∧
      ((∀ text ∈ table.records.strings, ¬ commentMark <:+: text.toList) →
        after .data table.recordsText.toList ≠ .nested) := by
  have noTag : ¬ ['<', '/'] <:+: table.recordsText.toList := by
    rw [recordsText, Json.scriptText, String.toList_ofList]
    exact Text.not_infix_guardTags _
  have read (front : List Char) (part : front <+: table.recordsText.toList) :
      (after .data front).IsOpen ∧
        ((after .data front).level = .nested ↔ Somewhere Nests front) :=
    after_spec trivial (fun found => noTag (found.trans part.isInfix)) fun mark => by contradiction
  obtain ⟨isOpen, level⟩ := read _ (List.prefix_refl _)
  have nested : after .data table.recordsText.toList = .nested ↔
      (after .data table.recordsText.toList).level = .nested := by
    obtain ⟨front, shape⟩ := exists_bracket table
    have before := (read front (shape ▸ List.prefix_append front [']'])).1
    have last : after .data table.recordsText.toList = step (after .data front) ']' := by
      rw [shape, after_append]
      rfl
    rw [last, step_bracket before]
    cases (after .data front).level <;> decide
  refine ⟨?_, nested.trans level, ?_, ?_⟩
  · intro front part closed
    have open_ := (read front part).1
    rw [closed] at open_
    exact open_
  · rw [after_append, after_closingTag isOpen.ne_closed, ne_eq, nested]
    split
    · rename_i inside
      exact iff_of_false (by decide) (not_not.mpr inside)
    · rename_i outside
      exact iff_of_true rfl outside
  · intro unmarked open_
    obtain ⟨text, member, mark⟩ := Json.Grammar.infix_scriptText
      ⟨rfl, by simp [commentMark]⟩ (isInfix_commentMark (level.mp (nested.mp open_)))
    exact unmarked text member mark

/-- A comment mark and an opening tag in a cell keep the element open behind its closing tag. -/
theorem after_recordsText_comment :
    ∃ table, ofDelimited [] (Text.Utf8.encode "t\n<!--<script>\n".toList) = .ok table ∧
      after .data table.recordsText.toList = .nested ∧
      after .data (table.recordsText.toList ++ closingTag) = .escaped := by
  refine ⟨⟨[⟨"t", .text⟩], [[.text "<!--<script>"]]⟩, eq_ok_of_toOption (by decide +kernel), ?_, ?_⟩
  · decide +kernel
  · decide +kernel

end Table

end LinkedViews
