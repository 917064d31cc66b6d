import LinkedViews.Files.Access

/-!
A folder of files kept as a value. Paths are relative to it; a folder inside it exists as long as it
holds a file. Above it lie folders of which nothing else is known.
-/

namespace LinkedViews

abbrev Location := List String

structure Folder where
  files : List (Location × List UInt8)
deriving DecidableEq, Repr

namespace Folder

def longestName : Nat := 255

def longestPath : Nat := 4095

/-- The segments of a relative path, unless it cannot be a path. -/
def segments (path : String) : Except FileFault (List String) :=
  if path.toList.contains '\x00' then .error .nameWithNull
  else if longestPath < path.utf8ByteSize then .error .nameTooLong
  else if path = "" ∨ path.toList.head? = some '/' then .error .notFound
  else .ok (path.splitOn "/")

def content? (folder : Folder) (location : Location) : Option (List UInt8) :=
  (folder.files.find? fun file => file.1 = location).map Prod.snd

/-- Whether a place is a folder: this one, one above it, or one that holds a file. -/
def isFolder (folder : Folder) (location : Location) : Bool :=
  location.all (· = "..") ||
    folder.files.any fun file => location.isPrefixOf file.1 && location ≠ file.1

/-- Whether a segment names no entry of a folder but the folder itself or the one above. -/
def isStep (segment : String) : Bool := segment = "" || segment = "." || segment = ".."

/-- The place that such a segment leads to. -/
def step (location : Location) (segment : String) : Location :=
  if segment ≠ ".." then location
  else if location.all (· = "..") then location ++ [".."]
  else location.dropLast

/-- Follows segments that all lead to folders. -/
def follow (folder : Folder) (location : Location) : List String → Except FileFault Location
  | [] => .ok location
  | segment :: rest =>
    if isStep segment then folder.follow (step location segment) rest
    else if longestName < segment.utf8ByteSize then .error .nameTooLong
    else
      let next := location ++ [segment]
      if folder.isFolder next then folder.follow next rest
      else if (folder.content? next).isSome then .error .notDirectory
      else .error .notFound

/-- The place of an entry below the folder that some segments lead to. -/
def entry (folder : Folder) (parents : List String) (name : String) :
    Except FileFault Location := do
  let parent ← folder.follow [] parents
  if longestName < name.utf8ByteSize then .error .nameTooLong else return parent ++ [name]

def read (folder : Folder) (path : String) : Except FileFault (List UInt8) := do
  let segments ← segments path
  let name := segments.getLastD ""
  if isStep name then
    let _ ← folder.follow [] segments
    .error .isDirectory
  else
    let location ← folder.entry segments.dropLast name
    match folder.content? location with
    | some content => return content
    | none => .error (if folder.isFolder location then .isDirectory else .notFound)

def write (folder : Folder) (path : String) (content : List UInt8) : Except FileFault Folder := do
  let segments ← segments path
  let named := (segments.reverse.dropWhile (· = "")).reverse
  let name := named.getLastD ""
  let parents := named.dropLast
  if named.length < segments.length ∨ isStep name then
    let _ ← folder.follow [] parents
    .error .isDirectory
  else
    let location ← folder.entry parents name
    if folder.isFolder location then .error .isDirectory
    else return ⟨folder.files.filter (fun file => file.1 ≠ location) ++ [(location, content)]⟩

def access : FileAccess (StateM Folder) where
  read path := do return (← get).read path
  write path content := do
    match (← get).write path content with
    | .ok folder =>
      set folder
      return .ok ()
    | .error fault => return .error fault

end Folder

end LinkedViews
