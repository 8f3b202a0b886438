import ShapingTables.CommandLine

/-! Runs the command line on the file system of the machine. -/
namespace ShapingTables

/-- The number of the fault of a path or name that is too long. Some calls report
the negated number. -/
def pathTooLongCode : UInt32 := 36

def fileFault : IO.Error → FileFault
  | .noFileOrDirectory .. => .missing
  | .alreadyExists .. => .occupied
  | .inappropriateType _ code _ =>
    if code = 21 then .isDirectory else .notDirectory
  | .invalidArgument _ code details =>
    if code = pathTooLongCode ∨ code = -pathTooLongCode then .pathTooLong
    else .refused details
  | error => .refused (toString error)

/-- Does something with the file or directory at a path. -/
def attempt (path : String) (action : IO α) : IO (Except FileFault α) := do
  if FilePath.hasNul path then return .error .nulInPath
  try return .ok (← action)
  catch error => return .error (fileFault error)

/-- Whether a directory stands at a path: only a directory is refused as one when it is read. -/
def isDirectory (path : String) : IO Bool := do
  return (← attempt path (IO.FS.readBinFile path)) matches .error .isDirectory

instance : FileSystem IO where
  readText path := do
    match ← attempt path (IO.FS.readBinFile path) with
    | .error fault => return .error fault
    | .ok bytes =>
      match String.fromUTF8? bytes with
      | some text => return .ok text
      | none => return .error .notText
  createDirectory path := do
    let created ← attempt path (IO.FS.createDir path)
    if created matches .error .occupied then
      if ← isDirectory path then return .ok ()
    return created
  writeText path text := attempt path (IO.FS.writeFile path text)

end ShapingTables

def main (arguments : List String) : IO UInt32 := do
  let result ← ShapingTables.CommandLine.run arguments
  if let .error failure := result then IO.eprint failure.message
  return ShapingTables.CommandLine.exitStatus result
