import ShapingTables.Build
import ShapingTables.FileSystem
import ShapingTables.Listing.CategoryListing
import ShapingTables.Listing.MatcherListing
import ShapingTables.Listing.PictographicListing

/-! The arguments are a configuration file and an output directory, and both may be left
out. Everything is built before anything is written. -/
namespace ShapingTables.CommandLine

/-- What went wrong, from what was being done to what it rests on. -/
structure Failure where
  context : String
  causes : List String
  deriving DecidableEq, Repr

/-- The lines of a cause behind its first one are indented like it. -/
def indentLines (indent : String) (text : String) : String :=
  String.ofList (text.toList.flatMap fun c => if c = '\n' then c :: indent.toList else [c])

/-- Several causes are numbered. -/
def Failure.message (failure : Failure) : String :=
  "Error: " ++ failure.context ++ "\n\nCaused by:\n" ++
    match failure.causes with
    | [cause] => "    " ++ indentLines "    " cause ++ "\n"
    | causes => String.join (causes.mapIdx fun number cause =>
        String.ofList ((toString number).toList.leftpad 5 ' ') ++ ": " ++
          indentLines "       " cause ++ "\n")

def whileDoing (context : String) (result : Except Fault α) : Except Failure α :=
  result.mapError fun fault => ⟨context, fault.causes⟩

/-- The generated files in the order in which they are written. -/
def outputs (source : Source) (config : Config) : Except Failure (List (String × String)) := do
  let table ← whileDoing "building the category table" (DispatchTable.ofSource source config)
  let matchers ← whileDoing "building the vowel constraint matchers"
    (ScriptMatchers.ofSource source)
  let pictographic ← whileDoing "building the pictographic set" (PictographicSet.ofSource source)
  return [
    ("universal_table.rs", (CategoryListing.ofTable table).text),
    ("vowel_constraints.rs", (MatcherListing.ofMatchers matchers).text),
    ("emoji_pictographic.rs", (PictographicListing.ofSet pictographic).text)]

variable {m : Type → Type} [Monad m] [FileSystem m]

def loadConfig : Option String → m (Except Failure Config)
  | none => return .ok .standard
  | some path => do
    return whileDoing ("loading configuration from " ++ path) (← Config.load path)

/-- Writes files into a directory and stops at the first that cannot be written. -/
def writeAll (directory : String) : List (String × String) → m (Except Failure Unit)
  | [] => return .ok ()
  | (name, text) :: rest => do
    let path := FilePath.join directory name
    match ← FileSystem.writeText path text with
    | .error fault => return .error ⟨"writing " ++ path, [fault.message]⟩
    | .ok _ => writeAll directory rest

def run (arguments : List String) : m (Except Failure Unit) := do
  match ← loadConfig arguments[0]? with
  | .error failure => return .error failure
  | .ok config =>
    let directory := (arguments[1]?).getD "."
    let source ← Source.readDirectory config.dataDir config.unicodeVersion
    match outputs source config with
    | .error failure => return .error failure
    | .ok files =>
      match ← FileSystem.createDirectories directory with
      | .error fault =>
        return .error ⟨"creating output directory " ++ directory, [fault.message]⟩
      | .ok _ => writeAll directory files

def exitStatus : Except Failure Unit → UInt32
  | .ok _ => 0
  | .error _ => 1

end ShapingTables.CommandLine
