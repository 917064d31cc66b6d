import LinkedViews.Command.Arguments
import LinkedViews.Dashboard.Report

/-!
The commands of the program and how they are given.
-/

namespace LinkedViews

inductive Command where
  | render (config data : String)
  | save (config data : String) (output : Option String)
  | bootstrap (config : Option String)
  | publish (data name : String) (categorical : List String)
  | info (config data : String) (verbose : Bool)
  | dump (config data : String) (output : Option String) (options : ReportOptions)
  | version
deriving DecidableEq, Repr

namespace Command

/-- A whole number of 64 bits, perhaps with a plus sign. -/
def readCount? (text : String) : Option Nat :=
  let digits := match text.toList with
    | '+' :: rest => rest
    | text => text
  (Numeral.readNat? digits).filter (· < UInt64.size)

def outputRule : Arguments.OptionRule := ⟨"output", some 'o', true, false, fun text => text ≠ ""⟩

def nameRule : Arguments.OptionRule := ⟨"name", some 'n', true, false, fun _ => true⟩

def categoricalRule : Arguments.OptionRule := ⟨"categorical", some 'c', true, true, fun _ => true⟩

def verboseRule : Arguments.OptionRule := .flag "verbose" (some 'v')

def maxBucketsRule : Arguments.OptionRule :=
  ⟨"max-buckets", none, true, false, fun text => (readCount? text).isSome⟩

def noFragmentsRule : Arguments.OptionRule := .flag "no-fragments" none

structure Form where
  rules : Arguments.Rules
  make : Arguments.Given → Option Command

def ofPaths (make : String → String → Command) (given : Arguments.Given) : Option Command :=
  match given.positionals with
  | [config, data] => some (make config data)
  | _ => none

def reportOptions (given : Arguments.Given) : ReportOptions where
  maxBuckets :=
    ((given.value? "max-buckets").bind readCount?).getD ReportOptions.standard.maxBuckets
  fragments := !given.has "no-fragments"

def form? : String → Option Form
  | "render" => some ⟨⟨[], 2⟩, ofPaths render⟩
  | "save" =>
    some ⟨⟨[outputRule], 2⟩, fun given =>
      ofPaths (fun config data => save config data (given.value? "output")) given⟩
  | "bootstrap" => some ⟨⟨[], 1⟩, fun given => some (bootstrap given.positionals.head?)⟩
  | "data" =>
    some ⟨⟨[nameRule, categoricalRule], 1⟩, fun given =>
      given.positionals.head?.map fun path =>
        publish path ((given.value? "name").getD Table.standardVariable)
          (given.values "categorical")⟩
  | "info" =>
    some ⟨⟨[verboseRule], 2⟩, fun given =>
      ofPaths (fun config data => info config data (given.has "verbose")) given⟩
  | "dump" =>
    some ⟨⟨[outputRule, maxBucketsRule, noFragmentsRule], 2⟩, fun given =>
      ofPaths (fun config data => dump config data (given.value? "output") (reportOptions given))
        given⟩
  | _ => none

def ofArguments : List String → Except Arguments.Stop Command
  | [] => .error .usage
  | name :: arguments =>
    match form? name with
    | some form => do
      match form.make (← Arguments.read form.rules arguments) with
      | some command => return command
      | none => .error .usage
    | none =>
      if name = "--version" ∨ ['-', 'V'].isPrefixOf name.toList then .ok version
      else if name = "--help" ∨ ['-', 'h'].isPrefixOf name.toList then .error .help
      else if name = "help" ∧ arguments.length ≤ 1 ∧
          arguments.all (fun about => about = "help" ∨ (form? about).isSome) then .error .help
      else .error .usage

end Command

end LinkedViews
