/-!
Arguments of a command: options with or without a value, in a long or a short form, and positional
values. Behind two dashes alone every argument is positional.
-/

namespace LinkedViews.Arguments

structure OptionRule where
  long : String
  short : Option Char
  takesValue : Bool
  repeatable : Bool
  accepts : String → Bool

def OptionRule.flag (long : String) (short : Option Char) : OptionRule :=
  ⟨long, short, false, false, fun _ => true⟩

/-- What a command takes. Its positional values are never empty. -/
structure Rules where
  options : List OptionRule
  positionals : Nat

structure Given where
  /-- The options with their values, in order; a flag has no text for a value. -/
  options : List (String × String)
  positionals : List String

/-- Why reading stops early: the arguments are wrong, or help is asked for. -/
inductive Stop where
  | usage
  | help
deriving DecidableEq, Repr

namespace Given

def empty : Given := ⟨[], []⟩

def has (given : Given) (long : String) : Bool := given.options.any fun option => option.1 = long

def values (given : Given) (long : String) : List String :=
  (given.options.filter fun option => option.1 = long).map Prod.snd

def value? (given : Given) (long : String) : Option String := (given.values long).head?

def addOption (given : Given) (rule : OptionRule) (value : String) : Except Stop Given :=
  if !rule.repeatable && given.has rule.long || !rule.accepts value then .error .usage
  else .ok { given with options := given.options ++ [(rule.long, value)] }

def addPositional (given : Given) (rules : Rules) (value : String) : Except Stop Given :=
  if rules.positionals ≤ given.positionals.length ∨ value = "" then .error .usage
  else .ok { given with positionals := given.positionals ++ [value] }

def addPositionals (given : Given) (rules : Rules) : List String → Except Stop Given
  | [] => .ok given
  | value :: rest => do (← given.addPositional rules value).addPositionals rules rest

end Given

/-- The text before the first equals sign, and the text behind it if there is one. -/
def splitValue (text : List Char) : String × Option String :=
  let name := text.takeWhile (· ≠ '=')
  (String.ofList name,
    if name.length = text.length then none else some (String.ofList (text.drop (name.length + 1))))

/-- An option in the long form, without its dashes. The rule that is given back is the one of an
option whose value is the next argument. -/
def readLong (rules : Rules) (given : Given) (text : List Char) :
    Except Stop (Given × Option OptionRule) :=
  let (name, value) := splitValue text
  match rules.options.find? fun rule => rule.long = name, value with
  | none, none => .error (if name = "help" then .help else .usage)
  | none, some _ => .error .usage
  | some rule, some value =>
    if rule.takesValue then (·, none) <$> given.addOption rule value else .error .usage
  | some rule, none =>
    if rule.takesValue then .ok (given, some rule) else (·, none) <$> given.addOption rule ""

/-- Options in the short form, without their dash. An option with a value ends the row: what
follows its letter is the value, an equals sign before it apart. -/
def readShort (rules : Rules) (given : Given) :
    List Char → Except Stop (Given × Option OptionRule)
  | [] => .ok (given, none)
  | letter :: rest =>
    match rules.options.find? fun rule => rule.short = some letter with
    | none => .error (if letter = 'h' then .help else .usage)
    | some rule =>
      if rule.takesValue then
        match rest with
        | [] => .ok (given, some rule)
        | '=' :: value => (·, none) <$> given.addOption rule (String.ofList value)
        | value => (·, none) <$> given.addOption rule (String.ofList value)
      else do readShort rules (← given.addOption rule "") rest

/-- Reads arguments; `pending` is an option that waits for its value. -/
def readFrom (rules : Rules) (pending : Option OptionRule) (given : Given) :
    List String → Except Stop Given
  | [] => if pending.isSome then .error .usage else .ok given
  | argument :: rest =>
    match pending, argument.toList with
    | none, ['-', '-'] => given.addPositionals rules rest
    | none, '-' :: '-' :: text => do
      let (given, pending) ← readLong rules given text
      readFrom rules pending given rest
    | none, '-' :: letter :: letters => do
      let (given, pending) ← readShort rules given (letter :: letters)
      readFrom rules pending given rest
    | some _, '-' :: _ :: _ => .error .usage
    | some rule, _ => do readFrom rules none (← given.addOption rule argument) rest
    | none, _ => do readFrom rules none (← given.addPositional rules argument) rest

def read (rules : Rules) (arguments : List String) : Except Stop Given :=
  readFrom rules none .empty arguments

end LinkedViews.Arguments
