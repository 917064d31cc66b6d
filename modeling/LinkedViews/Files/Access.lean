import LinkedViews.Failure
import LinkedViews.Text.Utf8

/-!
Access to files by their paths, in whatever way a program is given it.
-/

namespace LinkedViews

structure FileAccess (m : Type → Type) where
  read : String → m (Except FileFault (List UInt8))
  /-- Makes a file or replaces its content. A file that can be made takes all of it. -/
  write : String → List UInt8 → m (Except FileFault Unit)

namespace FileAccess

variable {m : Type → Type} [Monad m]

def readBytes (access : FileAccess m) (path : String) : ExceptT FileFault m (List UInt8) :=
  access.read path

def readText (access : FileAccess m) (path : String) : ExceptT FileFault m String := do
  match Text.Utf8.decode (← access.readBytes path) with
  | .ok text => return String.ofList text
  | .error _ => throw .notText

def writeText (access : FileAccess m) (path text : String) : ExceptT Failure m Unit := do
  match ← access.write path (Text.Utf8.encode text.toList) with
  | .ok () => return ()
  | .error fault => throw (.file fault)

end FileAccess

end LinkedViews
