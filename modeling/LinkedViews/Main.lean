import LinkedViews.Command.Run

/-!
The program: commands over the files of the system.
-/

namespace LinkedViews

def FileFault.ofError : IO.Error → FileFault
  | .noFileOrDirectory _ _ _ => .notFound
  | .inappropriateType _ code _ => if code = 21 then .isDirectory else .notDirectory
  | .invalidArgument _ code _ => if code = 22 then .nameWithNull else .nameTooLong
  | .permissionDenied _ _ _ => .other "Permission denied (os error 13)"
  | error => .other (toString error)

def systemFiles : FileAccess IO where
  read path := do
    match ← (IO.FS.readBinFile path).toBaseIO with
    | .ok bytes => return .ok bytes.toList
    | .error error => return .error (.ofError error)
  write path content := do
    match ← (IO.FS.writeBinFile path ⟨content.toArray⟩).toBaseIO with
    | .ok () => return .ok ()
    | .error error => return .error (.ofError error)

def systemSurroundings : Surroundings IO where
  files := systemFiles
  freshNumber := do
    return (← IO.getRandomBytes 16).foldl (fun number byte => 256 * number + byte.toNat) 0

end LinkedViews

def main (arguments : List String) : IO UInt32 := do
  let outcome ← LinkedViews.Command.run LinkedViews.systemSurroundings arguments
  IO.print outcome.output
  IO.eprint outcome.report
  return outcome.code.toUInt32
