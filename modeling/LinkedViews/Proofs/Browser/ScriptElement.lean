import LinkedViews.Proofs.Browser.ScriptData

/-!
Texts that a script element may hold, closing tags of other elements among them. Without a closing
tag of a script the reader does not leave the element, and the tag behind the text closes it unless
a nested part is open by then.
-/

namespace LinkedViews.Browser.ScriptData

open Text

variable {state : State} {c : Char} {name rest text front back : List Char} {level : Level}

/-! ## States -/

/-- The states within the element. Names that have been read are letters. -/
def State.IsInside : State → Prop
  | closed => False
  | dataName name | escapedName name | nesting name | unnesting name =>
    ∀ c ∈ name, c.isAlpha = true
  | _ => True

theorem State.IsOpen.isInside (isOpen : state.IsOpen) : state.IsInside := by
  cases state with
  | nesting name => exact isOpen
  | dataName | escapedName | unnesting | closed => contradiction
  | _ => trivial

theorem State.IsInside.ne_closed (inside : state.IsInside) : state ≠ .closed := by
  rintro rfl
  exact inside

theorem behind_dataStep : (dataStep c).behind <:+ front ++ [c] := by
  unfold dataStep
  split
  · rename_i mark
    exact mark ▸ List.suffix_append front ['<']
  · exact List.nil_suffix

theorem behind_escapedStep : (escapedStep c).behind <:+ front ++ [c] := by
  unfold escapedStep
  split
  · rename_i dash
    exact dash ▸ List.suffix_append front ['-']
  · split
    · rename_i mark
      exact mark ▸ List.suffix_append front ['<']
    · exact List.nil_suffix

theorem behind_nestedStep : (nestedStep c).behind <:+ front ++ [c] := by
  unfold nestedStep
  split
  · rename_i dash
    exact dash ▸ List.suffix_append front ['-']
  · split
    · rename_i mark
      exact mark ▸ List.suffix_append front ['<']
    · exact List.nil_suffix

/-- What a state keeps of the text is the end of what has been read. -/
theorem behind_step (state : State) (c : Char) :
    (step state c).behind <:+ state.behind ++ [c] := by
  unfold step
  split
  all_goals
    repeat' split
    all_goals first
      | exact behind_dataStep
      | exact behind_escapedStep
      | exact behind_nestedStep
      | exact List.nil_suffix
      | (subst_vars; first | exact List.suffix_append _ _ | exact List.suffix_rfl | decide)

/-! ## Closing tags -/

theorem endsScript_of_isInfix (ends : EndsScript front) (part : front <:+: back) :
    EndsScript back :=
  List.IsInfix.trans ends (part.map Char.toLower)

theorem endsScript_of_isScript (script : isScript name = true) (rest : List Char) :
    EndsScript ('<' :: '/' :: name ++ rest) := by
  have letters : name.map Char.toLower = ['s', 'c', 'r', 'i', 'p', 't'] := of_decide_eq_true script
  refine ⟨[], rest.map Char.toLower, ?_⟩
  rw [List.cons_append, List.cons_append, List.map_cons, List.map_cons, List.map_append, letters]
  rfl

/-- The start of a closing tag of another element is nothing. -/
theorem endsNested_slash : EndsNested level ('<' :: '/' :: text) ↔ EndsNested level text := by
  have noName : ¬ OpensScript ('<' :: '/' :: text) := by
    rintro ⟨name, d, rest, shape, script, ends⟩
    cases name with
    | nil => contradiction
    | cons e more =>
        obtain rfl := (List.cons.inj (List.cons.inj shape).2).1
        exact absurd (isAlpha_of_isScript script '/' List.mem_cons_self) (by decide)
  have noComment : ¬ Nests ('<' :: '/' :: text) := by
    rintro ⟨rest, shape, _⟩
    exact absurd (List.cons.inj (List.cons.inj shape).2).1 (by decide)
  have behind : EndsNested level ('/' :: text) ↔ EndsNested level text :=
    endsNested_cons (by decide) (by decide)
  cases level with
  | data => exact (endsNested_data_cons noComment).trans behind
  | escaped => exact (endsNested_escaped_cons (not_closes (by decide)) noName).trans behind
  | nested => exact (endsNested_nested_cons (not_closes (by decide))).trans behind

theorem endsNested_closing (letters : ∀ c ∈ name, c.isAlpha = true) :
    EndsNested level ('<' :: '/' :: name ++ text) ↔ EndsNested level text :=
  endsNested_slash.trans (endsNested_letters letters)

/-- A step within a text without a closing tag of a script, with the rest of the text behind it. -/
theorem step_inside (inside : state.IsInside) (noTag : ¬ EndsScript (state.behind ++ c :: text)) :
    (step state c).IsInside ∧ ((step state c).EndsNested text ↔ state.EndsNested (c :: text)) := by
  -- Up to the slash of a closing tag the step is that in a text without any.
  have plain (isOpen : state.IsOpen) (noSlash : state.behind = ['<'] → c ≠ '/') :
      (step state c).IsInside ∧ ((step state c).EndsNested text ↔ state.EndsNested (c :: text)) :=
    (step_spec isOpen noSlash).imp_left State.IsOpen.isInside
  -- A name that ends is not that of a script, since its tag would be in the text.
  have other {name : List Char} (behind : state.behind = '<' :: '/' :: name)
      (ends : endsName c = true) : isScript name = false := by
    by_contra script
    rw [behind] at noTag
    exact noTag (endsScript_of_isScript (Bool.eq_true_of_not_eq_false script) _)
  cases state with
  | closed => contradiction
  | dataSlash | escapedSlash =>
      rw [step]
      split
      · rename_i letter
        exact ⟨List.forall_mem_singleton.mpr letter, Iff.rfl⟩
      · first
        | exact ⟨isOpen_dataStep.isInside, endsNested_dataStep.trans endsNested_slash.symm⟩
        | exact ⟨isOpen_escapedStep.isInside, endsNested_escapedStep.trans endsNested_slash.symm⟩
  | dataName name | escapedName name =>
      have letters : ∀ c ∈ name, c.isAlpha = true := inside
      rw [step]
      split
      · rename_i letter
        refine ⟨List.forall_mem_append.mpr ⟨letters, List.forall_mem_singleton.mpr letter⟩, ?_⟩
        simp [State.EndsNested, State.behind, State.level]
      · rw [if_neg]
        · first
          | exact ⟨isOpen_dataStep.isInside,
              endsNested_dataStep.trans (endsNested_closing letters).symm⟩
          | exact ⟨isOpen_escapedStep.isInside,
              endsNested_escapedStep.trans (endsNested_closing letters).symm⟩
        · intro both
          rw [Bool.and_eq_true] at both
          rw [other rfl both.1] at both
          exact Bool.false_ne_true both.2
  | unnesting name =>
      have letters : ∀ c ∈ name, c.isAlpha = true := inside
      rw [step]
      split
      · rename_i letter
        refine ⟨List.forall_mem_append.mpr ⟨letters, List.forall_mem_singleton.mpr letter⟩, ?_⟩
        simp [State.EndsNested, State.behind, State.level]
      · split
        · rename_i ends
          have solid : c ≠ '<' ∧ c ≠ '-' := by constructor <;> rintro rfl <;> contradiction
          rw [other rfl ends]
          exact ⟨trivial, ((endsNested_closing letters).trans
            (endsNested_cons solid.1 solid.2)).symm⟩
        · exact ⟨isOpen_nestedStep.isInside,
            endsNested_nestedStep.trans (endsNested_closing letters).symm⟩
  | dataMark | escapedMark | nestedMark =>
      by_cases slash : c = '/'
      · subst slash
        exact ⟨by simp [step, State.IsInside], Iff.rfl⟩
      · exact plain trivial fun _ => slash
  | nesting name =>
      by_cases bare : name = [] ∧ c = '/'
      · obtain ⟨rfl, rfl⟩ := bare
        exact ⟨trivial, endsNested_slash.symm⟩
      · exact plain inside fun mark slash => bare ⟨(List.cons.inj mark).2, slash⟩
  | _ => exact plain trivial fun mark => by contradiction

/-! ## Runs -/

theorem endsNested_nil_of_isInside (inside : state.IsInside) :
    state.EndsNested [] ↔ state.level = .nested := by
  have none {level : Level} {name : List Char} (letters : ∀ c ∈ name, c.isAlpha = true) :
      EndsNested level ('<' :: '/' :: name ++ []) ↔ EndsNested level [] := endsNested_closing letters
  have data : State.data.EndsNested [] ↔ Level.data = .nested := endsNested_nil trivial
  have escaped : State.escaped.EndsNested [] ↔ Level.escaped = .nested := endsNested_nil trivial
  have nested : State.nested.EndsNested [] ↔ Level.nested = .nested := endsNested_nil trivial
  cases state with
  | closed => contradiction
  | dataSlash => exact (none fun _ => by simp).trans data
  | escapedSlash => exact (none fun _ => by simp).trans escaped
  | dataName name => exact (none inside).trans data
  | escapedName name => exact (none inside).trans escaped
  | unnesting name => exact (none inside).trans nested
  | nesting name => exact endsNested_nil inside
  | _ => exact endsNested_nil trivial

/-- A text without a closing tag of a script is read within the element, and what is left of it
tells where its reader ends. -/
theorem after_inside (inside : state.IsInside) (noTag : ¬ EndsScript (state.behind ++ text)) :
    (after state text).IsInside ∧ ((after state text).level = .nested ↔ state.EndsNested text) := by
  induction text generalizing state with
  | nil => exact ⟨inside, (endsNested_nil_of_isInside inside).symm⟩
  | cons c rest ih =>
      obtain ⟨next, same⟩ := step_inside inside noTag
      have later : ¬ EndsScript ((step state c).behind ++ rest) := by
        intro ends
        obtain ⟨front, shape⟩ := behind_step state c
        refine noTag (endsScript_of_isInfix ends ⟨front, [], ?_⟩)
        rw [List.append_nil, ← List.append_assoc, shape, List.append_assoc, List.singleton_append]
      obtain ⟨final, nested⟩ := ih next later
      exact ⟨final, nested.trans same⟩

/-- Whether a script element holds a text, and all of it: no part of the text closes the element,
and the closing tag behind the text does. -/
def Holds (text : List Char) : Prop :=
  (∀ front, front <+: text → after .data front ≠ .closed) ∧
    after .data (text ++ closingTag) = .closed

/-- An element holds a text without a closing tag of a script unless there is a comment mark in it
that is not closed again, with an opening tag of a script behind it. -/
theorem holds_iff (noTag : ¬ EndsScript text) : Holds text ↔ ¬ Somewhere Nests text := by
  have read (front : List Char) (part : front <+: text) :
      (after .data front).IsInside ∧
        ((after .data front).level = .nested ↔ Somewhere Nests front) :=
    after_inside trivial fun ends => noTag (endsScript_of_isInfix ends part.isInfix)
  obtain ⟨inside, level⟩ := read text List.prefix_rfl
  have closes : after .data (text ++ closingTag) = .closed ↔ ¬ Somewhere Nests text := by
    rw [after_append, after_closingTag inside.ne_closed, ← level]
    split
    · rename_i nested
      exact iff_of_false (by decide) (not_not.mpr nested)
    · rename_i other
      exact iff_of_true rfl other
  exact (and_iff_right fun front part => (read front part).1.ne_closed).trans closes

end LinkedViews.Browser.ScriptData
