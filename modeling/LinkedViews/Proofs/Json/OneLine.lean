import LinkedViews.Proofs.Number.Json
import LinkedViews.Proofs.Script.Lexeme
import LinkedViews.Proofs.Text.Block
import LinkedViews.Table.Records

/-!
Values in a script are on one line. Whatever texts a value holds, the line ends in them are escaped,
and without indentation there are no others.
-/

namespace LinkedViews

open Text

variable {c : Char} {text front back : List Char}

/-! ## Literals -/

namespace Lexeme

theorem mem_complete_of_lineEnd (line : c = '\n' ∨ c = '\r') (member : c ∈ text) (spot : Spot) :
    .mark c ∈ complete spot text := by
  obtain ⟨front, back, rfl⟩ := List.append_of_mem member
  rw [complete_append, complete, step_lineEnd _ line]
  simp

theorem IsBody.isSingle (inside : IsBody text) : IsSingle text := by
  have silent : complete (.inside '"' []) text = [] := (inside []).2
  intro c member
  constructor
  · intro feed
    have marked := mem_complete_of_lineEnd (.inl feed) member (.inside '"' [])
    rw [silent] at marked
    contradiction
  · intro carriage
    have marked := mem_complete_of_lineEnd (.inr carriage) member (.inside '"' [])
    rw [silent] at marked
    contradiction

end Lexeme

theorem Text.isSingle_enclosed {opening closing : Char} (first : isBlank opening = false)
    (last : isBlank closing = false) (inner : IsSingle text) :
    IsSingle (opening :: text ++ [closing]) := by
  have behind : IsSingle [closing] := isSingle_cons.mpr ⟨Line.single_of_shown last, by simp [IsSingle]⟩
  exact (isSingle_cons.mpr ⟨Line.single_of_shown first, inner⟩).append behind

namespace Json

theorem isSingle_quoteChars (text : List Char) : IsSingle (quoteChars text) :=
  isSingle_enclosed rfl rfl (Lexeme.isBody_flatMap_escapeChar text).isSingle

theorem isSingle_quote (text : String) : IsSingle (quote text).toList := by
  rw [quote, String.toList_ofList]
  exact isSingle_quoteChars text.toList

theorem isSingle_literal (text : String) : IsSingle (literal text).toList := by
  rw [toList_literal]
  exact isSingle_enclosed rfl rfl (Lexeme.isBody_literalBody text.toList).isSingle

/-! ## Values -/

theorem isSingle_of_figures (figures : ∀ c ∈ text, Numeral.isFigure c = true) : IsSingle text := by
  intro c member
  have figure := figures c member
  constructor
  · intro feed
    rw [feed] at figure
    contradiction
  · intro carriage
    rw [carriage] at figure
    contradiction

theorem isSingle_separated (items : List (List Char)) (each : ∀ item ∈ items, IsSingle item) :
    IsSingle (separated [','] items) := by
  induction items using separated.induct with
  | case1 => simp [separated, IsSingle]
  | case2 item => exact each item List.mem_cons_self
  | case3 item rest nonempty ih =>
      obtain ⟨first, others⟩ := List.forall_mem_cons.mp each
      have comma : IsSingle [','] := by simp [IsSingle]
      rw [separated]
      · exact (first.append comma).append (ih others)
      · exact nonempty

mutual

theorem isSingle_compactChars : (value : Json) → IsSingle (compactChars value)
  | .array items => isSingle_enclosed rfl rfl (isSingle_separated _ (isSingle_compactItems items))
  | .object members =>
      isSingle_enclosed rfl rfl (isSingle_separated _ (isSingle_compactMembers members))
  | .null => by simp [compactChars, scalarChars, IsSingle]
  | .boolean true => by simp [compactChars, scalarChars, IsSingle]
  | .boolean false => by simp [compactChars, scalarChars, IsSingle]
  | .integer value => isSingle_of_figures fun _ => Numeral.isFigure_of_mem_ofInt
  | .real value => by
      rw [compactChars, scalarChars]
      split
      · exact isSingle_of_figures fun _ => Numeral.isFigure_of_mem_json
      · simp [IsSingle]
  | .text value => isSingle_quoteChars value.toList

theorem isSingle_compactItems : (items : List Json) →
    ∀ item ∈ compactItems items, IsSingle item
  | [] => by simp [compactItems]
  | item :: rest => by
      have first := isSingle_compactChars item
      have others := isSingle_compactItems rest
      rw [compactItems]
      exact List.forall_mem_cons.mpr ⟨first, others⟩

theorem isSingle_compactMembers : (members : List (String × Json)) →
    ∀ member ∈ compactMembers members, IsSingle member
  | [] => by simp [compactMembers]
  | member :: rest => by
      have first := isSingle_compactMember member
      have others := isSingle_compactMembers rest
      rw [compactMembers]
      exact List.forall_mem_cons.mpr ⟨first, others⟩

theorem isSingle_compactMember : (member : String × Json) → IsSingle (compactMember member)
  | (name, value) => by
      have own := isSingle_compactChars value
      rw [compactMember]
      exact (isSingle_quoteChars name.toList).append (isSingle_cons.mpr ⟨by decide, own⟩)

end

theorem mem_of_mem_guardTags (member : c ∈ guardTags text) : c = '\\' ∨ c ∈ text := by
  induction text using guardTags.induct with
  | case1 rest ih =>
      rw [guardTags] at member
      simp only [List.mem_cons] at member ⊢
      tauto
  | case2 d rest apart ih =>
      rw [guardTags] at member
      · simp only [List.mem_cons] at member ⊢
        tauto
      · exact apart
  | case3 => contradiction

theorem isSingle_scriptText (value : Json) : IsSingle value.scriptText.toList := by
  rw [scriptText, String.toList_ofList]
  intro c member
  obtain rfl | inner := mem_of_mem_guardTags member
  · decide
  · exact isSingle_compactChars value c inner

end Json

theorem Table.isSingle_recordsText (table : Table) : IsSingle table.recordsText.toList :=
  Json.isSingle_scriptText table.records

end LinkedViews
