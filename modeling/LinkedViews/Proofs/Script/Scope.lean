import LinkedViews.Proofs.Script.Token

/-!
Scopes of a script. From its tokens it is read where functions begin and end, which names are bound
in them, by a parameter or a declaration, and which names are read. A name that is read belongs to
the innermost function around it that binds it anywhere; each function binds its list of arguments
as well.
-/

namespace LinkedViews

/-- A name, or none for one that a template leaves open. -/
abbrev ScopeName := Option (List Char)

inductive Event where
  | enter
  | leave
  | bind (name : ScopeName)
  | read (name : ScopeName)
deriving DecidableEq, Repr

inductive Bracket where
  | round
  | square
  | object
  | block
  /-- Around the body of a function. -/
  | body
deriving DecidableEq, Repr

/-- Where a reader of tokens stands: the token before, the brackets that are open, the innermost
first, and whether a function has begun whose body has not. -/
structure Stand where
  previous : Token
  brackets : List Bracket
  header : Bool
deriving DecidableEq, Repr

namespace Stand

def start : Stand := ⟨.mark ';', [], false⟩

def functionWord : List Char := ['f', 'u', 'n', 'c', 't', 'i', 'o', 'n']

def varWord : List Char := ['v', 'a', 'r']

def elseWord : List Char := ['e', 'l', 's', 'e']

/-- Whether a word that comes next is the name of a member in an object. -/
def isKey (stand : Stand) : Bool :=
  stand.brackets.head? = some .object &&
    (stand.previous = .mark '\x7b' || stand.previous = .mark ',')

/-- Whether a curly bracket that comes next is one around statements. -/
def opensBlock (stand : Stand) : Bool :=
  stand.previous ∈ [.mark ')', .mark ';', .mark '\x7b', .mark '\x7d', .word (some elseWord)]

def word (stand : Stand) (name : ScopeName) : Stand × List Event :=
  let next := { stand with previous := .word name }
  if stand.previous = .mark '.' then (next, [])
  else if name = some functionWord then ({ next with header := true }, [.enter])
  else if stand.header ∨ stand.previous = .word (some varWord) then (next, [.bind name])
  else if name = some varWord ∨ stand.isKey then (next, [])
  else (next, [.read name])

/-- One token. Words of the language that neither bind nor open anything count as names that are
read; nothing ever binds them. -/
def step (stand : Stand) : Token → Stand × List Event
  | .word name => stand.word name
  | .mark '(' => (⟨.mark '(', .round :: stand.brackets, stand.header⟩, [])
  | .mark '[' => (⟨.mark '[', .square :: stand.brackets, stand.header⟩, [])
  | .mark '\x7b' =>
    let bracket := if stand.header then .body else if stand.opensBlock then .block else .object
    (⟨.mark '\x7b', bracket :: stand.brackets, false⟩, [])
  | .mark ')' => (⟨.mark ')', stand.brackets.tail, stand.header⟩, [])
  | .mark ']' => (⟨.mark ']', stand.brackets.tail, stand.header⟩, [])
  | .mark '\x7d' =>
    (⟨.mark '\x7d', stand.brackets.tail, stand.header⟩,
      if stand.brackets.head? = some .body then [.leave] else [])
  | token => ({ stand with previous := token }, [])

def after (stand : Stand) : List Token → Stand
  | [] => stand
  | token :: rest => after (stand.step token).1 rest

def events (stand : Stand) : List Token → List Event
  | [] => []
  | token :: rest => (stand.step token).2 ++ events (stand.step token).1 rest

theorem after_append (stand : Stand) (front back : List Token) :
    stand.after (front ++ back) = (stand.after front).after back := by
  induction front generalizing stand with
  | nil => rfl
  | cons token rest ih => exact ih _

theorem events_append (stand : Stand) (front back : List Token) :
    stand.events (front ++ back) = stand.events front ++ (stand.after front).events back := by
  induction front generalizing stand with
  | nil => rfl
  | cons token rest ih =>
      rw [List.cons_append, events, ih, events, List.append_assoc]
      rfl

end Stand

namespace Event

/-- A function with what happens in its body. -/
def function (body : List Event) : List Event := .enter :: (body ++ [.leave])

end Event

/-! ## Places -/

/-- A name that is read, with the names that each function around it binds, the innermost first. -/
structure Place where
  name : ScopeName
  scopes : List (List ScopeName)
deriving DecidableEq, Repr

namespace Place

variable {front back : List Event} {name : ScopeName} {inner : List (List ScopeName)}
  {outer : List ScopeName}

def argumentsName : List Char := ['a', 'r', 'g', 'u', 'm', 'e', 'n', 't', 's']

/-- The names that are bound from here to the end of a function, `depth` functions within it. -/
def bound : Nat → List Event → List ScopeName
  | _, [] => []
  | depth, .enter :: rest => bound (depth + 1) rest
  | 0, .leave :: _ => []
  | depth + 1, .leave :: rest => bound depth rest
  | 0, .bind name :: rest => name :: bound 0 rest
  | depth + 1, .bind _ :: rest => bound (depth + 1) rest
  | depth, .read _ :: rest => bound depth rest

/-- What a function binds whose body follows. -/
def scope (events : List Event) : List ScopeName := some argumentsName :: bound 0 events

def all (scopes : List (List ScopeName)) : List Event → List Place
  | [] => []
  | .enter :: rest => all (scope rest :: scopes) rest
  | .leave :: rest => all scopes.tail rest
  | .bind _ :: rest => all scopes rest
  | .read name :: rest => ⟨name, scopes⟩ :: all scopes rest

/-- The function that a name belongs to, by the number of functions around it; none where the name
is bound nowhere around. -/
def homeIn (name : ScopeName) : List (List ScopeName) → Option Nat
  | [] => none
  | scope :: outer => if name ∈ scope then some outer.length else homeIn name outer

def home (place : Place) : Option Nat := homeIn place.name place.scopes

/-- The places of a script. -/
def ofText (text : String) : List Place := all [] (Stand.start.events (Token.read text.toList))

/-! ## Functions within functions -/

/-- How many functions deep some events lead, counted from a depth on; none where more functions
are left than lie around. -/
def depth? : Nat → List Event → Option Nat
  | depth, [] => some depth
  | depth, .enter :: rest => depth? (depth + 1) rest
  | 0, .leave :: _ => none
  | depth + 1, .leave :: rest => depth? depth rest
  | depth, .bind _ :: rest => depth? depth rest
  | depth, .read _ :: rest => depth? depth rest

theorem depth?_add {depth deep : Nat} (inside : depth? depth front = some deep) (more : Nat) :
    depth? (depth + more) front = some (deep + more) := by
  induction depth, front using depth?.induct with
  | case1 depth => rw [← Option.some.inj inside]; rfl
  | case2 depth rest ih =>
      rw [depth?, Nat.add_right_comm]
      exact ih inside
  | case3 rest => contradiction
  | case4 depth rest ih =>
      rw [Nat.succ_add]
      exact ih inside
  | case5 depth name rest ih => exact ih inside
  | case6 depth name rest ih => exact ih inside

theorem depth?_append {depth deep : Nat} (inside : depth? depth front = some deep) :
    depth? depth (front ++ back) = depth? deep back := by
  induction depth, front using depth?.induct with
  | case1 depth => rw [← Option.some.inj inside]; rfl
  | case2 depth rest ih => exact ih inside
  | case3 rest => contradiction
  | case4 depth rest ih => exact ih inside
  | case5 depth name rest ih => exact ih inside
  | case6 depth name rest ih => exact ih inside

theorem bound_append {depth deep : Nat} (inside : depth? depth front = some deep) :
    bound depth (front ++ back) = bound depth front ++ bound deep back := by
  induction depth, front using depth?.induct with
  | case1 depth => rw [← Option.some.inj inside]; rfl
  | case2 depth rest ih => exact ih inside
  | case3 rest => contradiction
  | case4 depth rest ih => exact ih inside
  | case5 depth name rest ih =>
      cases depth with
      | zero => exact congrArg (name :: ·) (ih inside)
      | succ depth => exact ih inside
  | case6 depth name rest ih => cases depth <;> exact ih inside

/-- Nothing is bound in a function behind its end. -/
theorem bound_append_of_left {depth : Nat} (left : depth? depth front = none) :
    bound depth (front ++ back) = bound depth front := by
  induction depth, front using depth?.induct with
  | case1 depth => contradiction
  | case2 depth rest ih => exact ih left
  | case3 rest => rfl
  | case4 depth rest ih => exact ih left
  | case5 depth name rest ih =>
      cases depth with
      | zero => exact congrArg (name :: ·) (ih left)
      | succ depth => exact ih left
  | case6 depth name rest ih => cases depth <;> exact ih left

theorem bound_eq_nil {depth deep : Nat} (inside : depth? depth front = some deep) :
    bound (depth + 1) front = [] := by
  induction depth, front using depth?.induct with
  | case1 depth => rfl
  | case2 depth rest ih => exact ih inside
  | case3 rest => contradiction
  | case4 depth rest ih => exact ih inside
  | case5 depth name rest ih => exact ih inside
  | case6 depth name rest ih => exact ih inside

/-- A place with more functions around it. -/
def within (outer : List (List ScopeName)) (place : Place) : Place :=
  { place with scopes := place.scopes ++ outer }

theorem within_nil (places : List Place) : places.map (within []) = places := by
  have same : within [] = id := by
    funext place
    simp [within]
  rw [same, List.map_id]

/-- Events that leave just the functions of `inner` have their places by themselves. -/
theorem all_append (inner outer : List (List ScopeName))
    (inside : depth? inner.length front = some 0) :
    all (inner ++ outer) (front ++ back) =
      (all inner front).map (within outer) ++ all outer back := by
  generalize deep : inner.length = depth at inside
  induction depth, front using depth?.induct generalizing inner with
  | case1 depth =>
      have none : inner = [] := List.length_eq_zero_iff.mp (deep.trans (Option.some.inj inside))
      rw [none]
      rfl
  | case2 depth rest ih =>
      have own : scope (rest ++ back) = scope rest := by
        -- The function that is entered is left within `rest`, for that leads out of `inner`.
        cases shown : depth? 0 rest with
        | none => rw [scope, bound_append_of_left shown, scope]
        | some level =>
            have more := depth?_add shown (depth + 1)
            rw [Nat.zero_add, show depth? (depth + 1) rest = some 0 from inside] at more
            have equal := Option.some.inj more
            omega
      rw [List.cons_append, all, all, own]
      exact ih (scope rest :: inner) (congrArg (· + 1) deep) inside
  | case3 rest => contradiction
  | case4 depth rest ih =>
      cases inner with
      | nil => contradiction
      | cons first others => exact ih others (Nat.succ.inj deep) inside
  | case5 depth name rest ih => exact ih inner deep inside
  | case6 depth name rest ih => exact congrArg (_ :: ·) (ih inner deep inside)

theorem all_append_level (outer : List (List ScopeName)) (level : depth? 0 front = some 0) :
    all outer (front ++ back) = (all [] front).map (within outer) ++ all outer back :=
  all_append [] outer level

/-- All that is bound in the body of a function is a scope around each place in it. -/
theorem all_function (level : depth? 0 front = some 0) :
    all [] (Event.function front) = (all [] front).map (within [scope front]) := by
  have own : scope (front ++ [.leave]) = scope front := by
    rw [scope, bound_append level]
    exact congrArg _ (List.append_nil _)
  rw [Event.function, all, own, all_append_level _ level]
  exact List.append_nil _

theorem depth?_function (level : depth? 0 front = some 0) :
    depth? 0 (Event.function front) = some 0 := by
  have inner : depth? 1 (front ++ [.leave]) = depth? 1 [.leave] :=
    depth?_append (depth?_add level 1)
  exact inner

theorem depth?_append_level (level : depth? 0 front = some 0) (same : depth? 0 back = some 0) :
    depth? 0 (front ++ back) = some 0 := (depth?_append level).trans same

theorem bound_append_level (level : depth? 0 front = some 0) :
    bound 0 (front ++ back) = bound 0 front ++ bound 0 back := bound_append level

theorem bound_function (level : depth? 0 front = some 0) :
    bound 0 (Event.function front) = [] := by
  have inner : bound 1 (front ++ [.leave]) = bound 1 front ++ bound 1 [.leave] :=
    bound_append (depth?_add level 1)
  rw [bound_eq_nil level] at inner
  exact inner

/-- A name belongs to the outermost function if no function within it binds the name. -/
theorem homeIn_eq_zero_iff :
    homeIn name (inner ++ [outer]) = some 0 ↔ (∀ scope ∈ inner, name ∉ scope) ∧ name ∈ outer := by
  induction inner with
  | nil => simp [homeIn]
  | cons scope rest ih =>
      rw [List.cons_append, homeIn]
      by_cases bound : name ∈ scope
      · simp [bound]
      · rw [if_neg bound, ih]
        simp [bound]

theorem depth?_flatMap {item : Type} {items : List item} {events : item → List Event}
    (each : ∀ one ∈ items, depth? 0 (events one) = some 0) :
    depth? 0 (items.flatMap events) = some 0 := by
  induction items with
  | nil => rfl
  | cons one rest ih =>
      exact depth?_append_level (each one List.mem_cons_self)
        (ih fun other member => each other (List.mem_cons_of_mem one member))

theorem all_flatMap {item : Type} {items : List item} {events : item → List Event}
    (each : ∀ one ∈ items, depth? 0 (events one) = some 0) :
    all [] (items.flatMap events) = items.flatMap fun one => all [] (events one) := by
  induction items with
  | nil => rfl
  | cons one rest ih =>
      rw [List.flatMap_cons, all_append_level _ (each one List.mem_cons_self), within_nil,
        ih fun other member => each other (List.mem_cons_of_mem one member), List.flatMap_cons]

theorem bound_flatMap {item : Type} {items : List item} {events : item → List Event}
    (each : ∀ one ∈ items, depth? 0 (events one) = some 0 ∧ bound 0 (events one) = []) :
    bound 0 (items.flatMap events) = [] := by
  induction items with
  | nil => rfl
  | cons one rest ih =>
      obtain ⟨level, empty⟩ := each one List.mem_cons_self
      rw [List.flatMap_cons, bound_append_level level, empty,
        ih fun other member => each other (List.mem_cons_of_mem one member)]
      rfl

end Place

/-! ## Filled templates -/

variable {index : IndexName}

namespace ScopeName

/-- A name, with the one of the index for one that is left open. -/
def fill (index : IndexName) : ScopeName → ScopeName
  | none => some index.text.toList
  | some name => some name

end ScopeName

namespace Event

def fill (index : IndexName) : Event → Event
  | .enter => .enter
  | .leave => .leave
  | .bind name => .bind (name.fill index)
  | .read name => .read (name.fill index)

end Event

/-- No word of the language is the name of an index. -/
theorem IndexName.ne_of_keyword (index : IndexName) {word : List Char}
    (keyword : keywords.contains (String.ofList word) = true) : index.text.toList ≠ word := by
  rintro rfl
  have valid := index.valid
  rw [String.ofList_toList] at keyword
  rw [isValid, keyword, Bool.not_true, Bool.and_false] at valid
  contradiction

namespace Stand

def fill (index : IndexName) (stand : Stand) : Stand :=
  { stand with previous := stand.previous.fill index }

theorem fill_word (index : IndexName) (name : ScopeName) :
    Token.fill index (.word name) = .word (name.fill index) := by
  cases name <;> rfl

/-- Filling leaves apart what is apart from names of an index. -/
theorem fill_eq_iff {token other : Token} (closed : other ≠ .word none)
    (apart : other ≠ .word (some index.text.toList)) : token.fill index = other ↔ token = other := by
  cases token with
  | word name =>
      cases name with
      | none => exact ⟨fun same => absurd same.symm apart, fun same => absurd same.symm closed⟩
      | some name => rfl
  | value => rfl
  | mark c => rfl
  | broken => rfl

theorem name_fill_eq_iff {name : ScopeName} {word : List Char}
    (apart : index.text.toList ≠ word) : name.fill index = some word ↔ name = some word := by
  cases name with
  | none => exact ⟨fun same => absurd (Option.some.inj same) apart, fun same => nomatch same⟩
  | some name => rfl

theorem previous_fill_mark (index : IndexName) (stand : Stand) (c : Char) :
    (stand.fill index).previous = .mark c ↔ stand.previous = .mark c :=
  fill_eq_iff Token.noConfusion Token.noConfusion

theorem previous_fill_word (stand : Stand) {word : List Char} (apart : index.text.toList ≠ word) :
    (stand.fill index).previous = .word (some word) ↔ stand.previous = .word (some word) := by
  refine fill_eq_iff ?_ ?_
  · intro same
    exact Option.some_ne_none _ (Token.word.inj same)
  · intro same
    exact apart (Option.some.inj (Token.word.inj same)).symm

theorem word_fill (index : IndexName) (stand : Stand) (name : ScopeName) :
    (stand.fill index).word (name.fill index) =
      ((stand.word name).1.fill index, (stand.word name).2.map (Event.fill index)) := by
  have function : index.text.toList ≠ functionWord := index.ne_of_keyword (by decide)
  have var : index.text.toList ≠ varWord := index.ne_of_keyword (by decide)
  have key : (stand.fill index).isKey = stand.isKey := by
    simp only [isKey, previous_fill_mark]
    rfl
  have header : (stand.fill index).header = stand.header := rfl
  have next (flag : Bool) :
      (⟨.word (name.fill index), stand.brackets, flag⟩ : Stand) =
        fill index ⟨.word name, stand.brackets, flag⟩ := by
    rw [fill, fill_word]
  simp only [word, previous_fill_mark, previous_fill_word stand var, name_fill_eq_iff function,
    name_fill_eq_iff var, key, header]
  split_ifs <;> exact Prod.ext (next _) rfl

theorem step_fill (index : IndexName) (stand : Stand) (token : Token) :
    (stand.fill index).step (token.fill index) =
      ((stand.step token).1.fill index, (stand.step token).2.map (Event.fill index)) := by
  have other : index.text.toList ≠ elseWord := index.ne_of_keyword (by decide)
  have block : (stand.fill index).opensBlock = stand.opensBlock := by
    simp only [opensBlock, List.mem_cons, List.not_mem_nil, or_false, previous_fill_mark,
      previous_fill_word stand other]
  cases token with
  | word name =>
      rw [fill_word]
      exact word_fill index stand name
  | value => rfl
  | broken => rfl
  | mark c =>
      rw [show Token.fill index (.mark c) = .mark c from rfl]
      unfold step
      split
      case h_1 => contradiction
      case h_4 =>
        rw [block]
        rfl
      case h_7 =>
        refine Prod.ext rfl ?_
        change _ = (if _ then [Event.leave] else []).map (Event.fill index)
        rw [apply_ite (List.map (Event.fill index))]
        rfl
      all_goals rfl

theorem after_fill (index : IndexName) (stand : Stand) (tokens : List Token) :
    (stand.fill index).after (tokens.map (Token.fill index)) = (stand.after tokens).fill index := by
  induction tokens generalizing stand with
  | nil => rfl
  | cons token rest ih => rw [List.map_cons, after, step_fill, ih, after]

theorem events_fill (index : IndexName) (stand : Stand) (tokens : List Token) :
    (stand.fill index).events (tokens.map (Token.fill index)) =
      (stand.events tokens).map (Event.fill index) := by
  induction tokens generalizing stand with
  | nil => rfl
  | cons token rest ih => rw [List.map_cons, events, step_fill, ih, events, List.map_append]

end Stand

namespace Place

def fill (index : IndexName) (place : Place) : Place :=
  ⟨place.name.fill index, place.scopes.map (List.map (ScopeName.fill index))⟩

theorem bound_fill (index : IndexName) (depth : Nat) (events : List Event) :
    bound depth (events.map (Event.fill index)) =
      (bound depth events).map (ScopeName.fill index) := by
  induction depth, events using bound.induct with
  | case1 depth => rfl
  | case2 depth rest ih => exact ih
  | case3 rest => rfl
  | case4 depth rest ih => exact ih
  | case5 name rest ih => exact congrArg (_ :: ·) ih
  | case6 depth name rest ih => exact ih
  | case7 depth name rest ih => cases depth <;> exact ih

theorem all_fill (index : IndexName) (scopes : List (List ScopeName)) (events : List Event) :
    all (scopes.map (List.map (ScopeName.fill index))) (events.map (Event.fill index)) =
      (all scopes events).map (fill index) := by
  induction events generalizing scopes with
  | nil => rfl
  | cons event rest ih =>
      cases event with
      | enter =>
          have own : scope (rest.map (Event.fill index)) =
              (scope rest).map (ScopeName.fill index) := by
            rw [scope, bound_fill]
            rfl
          rw [List.map_cons, Event.fill, all, own, all, ← ih]
          rfl
      | leave =>
          rw [List.map_cons, Event.fill, all, all, ← ih, List.map_tail]
      | bind name => exact ih scopes
      | read name => exact congrArg (_ :: ·) (ih scopes)

end Place

end LinkedViews
