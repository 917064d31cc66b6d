import LinkedViews.Command.Basic
import LinkedViews.Dashboard.DisplayId
import LinkedViews.Dashboard.Saving

/-!
Running commands. What a command prints is printed only if all of it succeeds.
-/

namespace LinkedViews

/-- The end of a run: an exit code, what is printed, and what is reported of a failure. -/
structure Outcome where
  code : UInt8
  output : String
  report : String
deriving DecidableEq, Repr

/-- A failure as it is told to the user: a message, and the message of what lies behind it. -/
structure Complaint where
  message : String
  cause : Option String
deriving DecidableEq, Repr

namespace Complaint

def ofFailure (failure : Failure) : Complaint := ⟨failure.message, failure.cause?⟩

def ofFile (fault : FileFault) : Complaint := ⟨fault.message, none⟩

/-- The cause stands below the message, moved in. -/
def text (complaint : Complaint) : String :=
  Text.ofLines (("Error: " ++ complaint.message) ::
    match complaint.cause with
    | some cause => ["", "Caused by:", "    " ++ cause]
    | none => [])

end Complaint

structure Surroundings (m : Type → Type) where
  files : FileAccess m
  /-- A number of 128 bits that has not been given before. -/
  freshNumber : m Nat

namespace Command

def programVersion : String := "crossfilter-dash 0.1.0"

variable {m : Type → Type} [Monad m]

/-- The bytes of a table. A folder can be opened like a file, but not read. -/
def readTable (files : FileAccess m) (path : String) :
    ExceptT FileFault m (Except Failure (List UInt8)) :=
  ExceptT.mk do
    match ← files.read path with
    | .ok bytes => return .ok (.ok bytes)
    | .error .isDirectory => return .ok (.error (.unreadable .isDirectory))
    | .error fault => return .error fault

def complaining {α : Type} (result : Except Failure α) : ExceptT Complaint m α :=
  ExceptT.mk (pure (result.mapError Complaint.ofFailure))

/-- The configuration in a file; `ofFile` tells of faults of the file. -/
def readConfiguration (files : FileAccess m) (ofFile : FileFault → Complaint) (path : String) :
    ExceptT Complaint m Configuration := do
  complaining (Configuration.ofText (← (files.readText path).adapt ofFile))

def openProject (files : FileAccess m) (config data : String) : ExceptT Complaint m Project := do
  let ofFile := fun fault => Complaint.ofFailure (.file fault)
  let configuration ← readConfiguration files ofFile config
  let bytes ← complaining (← (readTable files data).adapt ofFile)
  complaining (Project.ofParts configuration bytes)

def output (surroundings : Surroundings m) : Command → ExceptT Complaint m String
  | render config data => do
    let project ← openProject surroundings.files config data
    return project.dashboard.script (DisplayId.ofNat (← surroundings.freshNumber))
  | save config data output => do
    let project ← openProject surroundings.files config data
    let displayId := DisplayId.ofNat (← surroundings.freshNumber)
    let base := output.getD project.configuration.output
    let saving := project.dashboard.save surroundings.files project.configuration.resources
      displayId base
    let paths ← saving.adapt Complaint.ofFailure
    return Text.ofLines ["Dashboard saved: " ++ paths.page, "Data exported: " ++ paths.table]
  | bootstrap config => do
    let resources ← match config with
      | some path =>
        Configuration.resources <$> readConfiguration surroundings.files Complaint.ofFile path
      | none => pure Resources.standard
    return Text.ofLines [resources.loaderCall, resources.stylesheetLink]
  | publish path name categorical => do
    let bytes ← complaining (← (readTable surroundings.files path).adapt Complaint.ofFile)
    let table ← complaining (Table.ofDelimited categorical bytes)
    return Text.ofLines [table.publishingScript name]
  | info config data verbose => do
    return (← openProject surroundings.files config data).overview verbose
  | dump config data output options => do
    let project ← openProject surroundings.files config data
    let path := output.getD (project.configuration.output ++ ".dump.txt")
    (project.dashboard.saveReport surroundings.files options path).adapt Complaint.ofFailure
    return Text.ofLines ["Dump written to: " ++ path]
  | version => return Text.ofLines [programVersion]

/-- Runs the command that arguments give. Wrong arguments end with code two, other failures with
code one. -/
def run (surroundings : Surroundings m) (arguments : List String) : m Outcome := do
  match ofArguments arguments with
  | .error .usage => return ⟨2, "", ""⟩
  | .error .help => return ⟨0, "", ""⟩
  | .ok command =>
    match ← (command.output surroundings).run with
    | .ok output => return ⟨0, output, ""⟩
    | .error complaint => return ⟨1, "", complaint.text⟩

end Command

end LinkedViews
