import ShapingTables.Config
import ShapingTables.Source

/-! The three things that the program does with files, for any kind of file system, and
how paths are written. Paths are joined as text and never simplified, so that messages
show them as they were given. -/
namespace ShapingTables

class FileSystem (m : Type → Type) where
  readText : String → m (Except FileFault String)
  /-- Creates a single directory; one that is there already is fine. -/
  createDirectory : String → m (Except FileFault Unit)
  writeText : String → String → m (Except FileFault Unit)

namespace FilePath

/-- An absolute path stands for itself wherever it is joined. -/
def join (directory path : String) : String :=
  match path.toList.head?, directory.toList.getLast? with
  | some '/', _ | _, none => path
  | _, some '/' => directory ++ path
  | _, some _ => directory ++ "/" ++ path

/-- The parts between the slashes. An empty part stands for the directory it is in. -/
def parts (path : String) : List String :=
  let (part, others) := Text.splitWhere (· == '/') path.toList
  (part :: others).map String.ofList

/-- The paths that the ends of a list of parts spell, its last part first in each. -/
def spelled : List String → List String
  | [] => []
  | part :: rest => "/".intercalate (part :: rest).reverse :: spelled rest

/-- The directories above a path, the nearest first. An empty part or a dot at the
end of the path is no level of its own. -/
def above (path : String) : List String :=
  let levels := (parts path).reverse.dropWhile fun part => part = "" ∨ part = "."
  (spelled levels.tail).filter (!·.isEmpty)

/-- No path to a file or directory holds a NUL. -/
def hasNul (path : String) : Bool := path.toList.contains '\x00'

def isAbsolute (path : String) : Bool := path.toList.head? == some '/'

end FilePath

namespace Source

/-- The files below a data directory, given what reading each path below it gives. -/
def ofDirectory (directory version : String) (read : SourceFile → Except FileFault String) :
    Source := fun file =>
  match read file with
  | .ok text => .ok text
  | .error .missing => .error (.missingSource file directory version)
  | .error fault => .error (.unreadable (FilePath.join directory file.path) fault)

end Source

variable {m : Type → Type} [Monad m] [FileSystem m]

/-- Creates a directory, and if it has no place to be in, the nearest of those above
it first. -/
def FileSystem.createBelow : String → List String → m (Except FileFault Unit)
  | path, [] => FileSystem.createDirectory path
  | path, parent :: above => do
    match ← FileSystem.createDirectory path with
    | .error .missing =>
      match ← createBelow parent above with
      | .error fault => return .error fault
      | .ok _ => FileSystem.createDirectory path
    | created => return created

/-- Creates a directory with all directories above it. -/
def FileSystem.createDirectories (path : String) : m (Except FileFault Unit) :=
  if path.isEmpty then return .ok ()
  else FileSystem.createBelow path (FilePath.above path)

/-- Reads all ten files once; a file that cannot be read counts only when it is used. -/
def Source.readDirectory (directory version : String) : m Source := do
  let texts ← SourceFile.all.mapM fun file => do
    return (file, ← FileSystem.readText (FilePath.join directory file.path))
  return ofDirectory directory version fun file => (texts.lookup file).getD (.error .missing)

def Config.load (path : String) : m (Except Fault Config) := do
  match ← FileSystem.readText path with
  | .ok text => return Config.ofText text
  | .error fault => return .error (.unreadable path fault)

end ShapingTables
