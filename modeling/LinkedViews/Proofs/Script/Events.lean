import LinkedViews.Proofs.Script.Scope
import LinkedViews.Proofs.Script.Templates

/-!
What happens in the program of a chart. Its segments are read one after the other; each leaves all
functions that it enters, so what is bound and read in a program is what is bound and read in its
segments. A name that is read is bound by a function within the program, or reserved, or a word of
the language, but for the name of the index and for the constructor that scales of time use.
-/

namespace LinkedViews

variable {stand next last : Stand} {front back parts : List Part} {kind : ChartKind}

theorem Token.ofParts_append (apart : Token.after [] (moldsOf front) = []) (back : List Part) :
    Token.ofParts (front ++ back) = Token.ofParts front ++ Token.ofParts back := by
  have first : Token.ofParts front = Token.complete [] (moldsOf front) := by
    rw [Token.ofParts, Token.words, apart]
    exact List.append_nil _
  rw [Token.ofParts, moldsOf_append, Token.words_append, apart, first]
  rfl

namespace IndexName

def isReserved (word : List Char) : Bool := reservedNames.contains (String.ofList word)

def isKeyword (word : List Char) : Bool := keywords.contains (String.ofList word)

end IndexName

namespace Place

/-- The constructor that scales of time use, where no function of the program is around it. -/
def date : Place := ⟨some ['D', 'a', 't', 'e'], []⟩

/-- Whether a place in a program is clear of every index: the index itself is named outside all
functions, any other name cannot be that of an index or is bound by one of the functions. -/
def isSettled (place : Place) : Bool :=
  match place.name with
  | none => place.scopes = []
  | some word => IndexName.isReserved word || IndexName.isKeyword word ||
      place.scopes.flatten.contains (some word)

end Place

namespace Stand

/-- What is required of a segment that is read from one stand on up to another; `dated` allows it
to read the constructor of dates. -/
structure Leads (dated : Bool) (stand : Stand) (parts : List Part) (next : Stand) : Prop where
  apart : Token.after [] (moldsOf parts) = []
  goal : stand.after (Token.ofParts parts) = next
  level : Place.depth? 0 (stand.events (Token.ofParts parts)) = some 0
  names : ∀ name ∈ Place.bound 0 (stand.events (Token.ofParts parts)),
    name.any IndexName.isReserved = true
  places : ∀ place ∈ Place.all [] (stand.events (Token.ofParts parts)),
    place.isSettled = true ∨ dated = true ∧ place = Place.date

instance (dated : Bool) (stand : Stand) (parts : List Part) (next : Stand) :
    Decidable (Leads dated stand parts next) :=
  decidable_of_iff
    (Token.after [] (moldsOf parts) = [] ∧ stand.after (Token.ofParts parts) = next ∧
      Place.depth? 0 (stand.events (Token.ofParts parts)) = some 0 ∧
      (∀ name ∈ Place.bound 0 (stand.events (Token.ofParts parts)),
        name.any IndexName.isReserved = true) ∧
      ∀ place ∈ Place.all [] (stand.events (Token.ofParts parts)),
        place.isSettled = true ∨ dated = true ∧ place = Place.date)
    ⟨fun ⟨apart, goal, level, names, places⟩ => ⟨apart, goal, level, names, places⟩,
      fun leads => ⟨leads.apart, leads.goal, leads.level, leads.names, leads.places⟩⟩

variable {dated early late : Bool}

theorem Leads.events_append (first : Leads dated stand front next) (back : List Part) :
    stand.events (Token.ofParts (front ++ back)) =
      stand.events (Token.ofParts front) ++ next.events (Token.ofParts back) := by
  rw [Token.ofParts_append first.apart, Stand.events_append, first.goal]

theorem Leads.places_append (first : Leads dated stand front next) (back : List Part) :
    Place.all [] (stand.events (Token.ofParts (front ++ back))) =
      Place.all [] (stand.events (Token.ofParts front)) ++
        Place.all [] (next.events (Token.ofParts back)) := by
  rw [first.events_append, Place.all_append_level _ first.level, Place.within_nil]

theorem Leads.append (first : Leads early stand front next) (second : Leads late next back last) :
    Leads (early || late) stand (front ++ back) last where
  apart := by rw [moldsOf_append, Token.after_append, first.apart, second.apart]
  goal := by rw [Token.ofParts_append first.apart, after_append, first.goal, second.goal]
  level := by rw [first.events_append, Place.depth?_append first.level, second.level]
  names name member := by
    rw [first.events_append, Place.bound_append first.level] at member
    exact (List.mem_append.mp member).elim (first.names name) (second.names name)
  places place member := by
    rw [first.places_append] at member
    obtain own | own := List.mem_append.mp member
    · exact (first.places place own).imp_right fun date => ⟨by simp [date.1], date.2⟩
    · exact (second.places place own).imp_right fun date => ⟨by simp [date.1], date.2⟩

end Stand

namespace Program

/-- The brackets around the body of a fragment, in the function of the script. -/
def brackets : List Bracket := [.body, .round, .body, .round]

def opened : Stand := ⟨.mark '\x7b', brackets, false⟩

def between : Stand := ⟨.mark ';', brackets, false⟩

def calling : Stand := ⟨.mark ')', brackets, false⟩

theorem leads_container : opened.Leads false container between := by decide

theorem leads_dimension (kind : ChartKind) : between.Leads false (dimension kind) between := by
  cases kind <;> decide

theorem leads_groups (reducer : ReducerKind) : between.Leads false (groups reducer) between := by
  cases reducer <;> decide

theorem leads_probes : between.Leads false probes between := by decide

theorem leads_drawing (kind : ChartKind) :
    between.Leads (kind.scale = .time) (drawing kind) calling := by
  cases kind <;> decide

theorem leads_layout (kind : ChartKind) : calling.Leads false (layout kind) calling := by
  cases kind <;> decide +kernel

theorem leads_reading (reducer : ReducerKind) : calling.Leads false (reading reducer) between := by
  cases reducer <;> decide

theorem leads_spelling (kind : ChartKind) (reducer : ReducerKind) :
    opened.Leads (kind.scale = .time) (spelling kind reducer).parts between := by
  have whole := leads_container.append <| (leads_dimension kind).append <|
    (leads_groups reducer).append <| leads_probes.append <| (leads_drawing kind).append <|
    (leads_layout kind).append (leads_reading reducer)
  rw [parts_spelling]
  simpa only [Bool.false_or, Bool.or_false] using whole

/-- What happens in the program of a chart. -/
def events (kind : ChartKind) (reducer : ReducerKind) : List Event :=
  opened.events (Token.ofParts (spelling kind reducer).parts)

theorem date_mem (reducer : ReducerKind) (time : kind.scale = .time) :
    Place.date ∈ Place.all [] (events kind reducer) := by
  have drawn : Place.date ∈ Place.all [] (between.events (Token.ofParts (drawing kind))) := by
    cases kind <;> first | contradiction | decide
  rw [events, parts_spelling, leads_container.places_append, (leads_dimension kind).places_append,
    (leads_groups reducer).places_append, leads_probes.places_append,
    (leads_drawing kind).places_append]
  simp only [List.mem_append, drawn, true_or, or_true]

end Program

end LinkedViews
