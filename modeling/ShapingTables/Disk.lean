import ShapingTables.FileSystem

/-! A file system that is a map from places to files and directories. A path is walked
part by part: each part but the last must be a directory, `.` stays and `..` goes up. A
path has at most 4095 bytes and each of its parts 255. There are no links and no
permissions. -/
namespace ShapingTables

inductive DiskEntry where
  | file (bytes : ByteArray)
  | directory

/-- A place is the list of names from the root down to it. -/
structure Disk where
  entryAt : List String → Option DiskEntry
  workingDirectory : List String

namespace Disk

/-- Only the root and the working directory, empty. -/
def empty (workingDirectory : List String) : Disk where
  entryAt place := if place.isPrefixOf workingDirectory then some .directory else none
  workingDirectory := workingDirectory

def put (disk : Disk) (place : List String) (entry : DiskEntry) : Disk :=
  { disk with entryAt := fun other => if other = place then some entry else disk.entryAt other }

def requireDirectory (disk : Disk) (place : List String) : Except FileFault Unit :=
  match disk.entryAt place with
  | some .directory => .ok ()
  | some (.file _) => .error .notDirectory
  | none => .error .missing

/-- The place that a part of a path leads to from a directory. -/
def next (place : List String) (part : String) : List String :=
  if part = "" ∨ part = "." then place
  else if part = ".." then place.dropLast
  else place ++ [part]

def start (disk : Disk) (path : String) : List String :=
  if FilePath.isAbsolute path then [] else disk.workingDirectory

/-- The place of a path, in which nothing need be. -/
def walk (disk : Disk) : List String → List String → Except FileFault (List String)
  | place, [] => .ok place
  | place, part :: rest =>
    match disk.requireDirectory place with
    | .error fault => .error fault
    | .ok _ =>
      if 255 < part.utf8ByteSize then .error .pathTooLong else disk.walk (next place part) rest

/-- The place that some parts of a path lead to from where the path starts. -/
def follow (disk : Disk) (path : String) (parts : List String) : Except FileFault (List String) :=
  if FilePath.hasNul path then .error .nulInPath
  else if 4095 < path.utf8ByteSize then .error .pathTooLong
  else disk.walk (disk.start path) parts

def locate (disk : Disk) (path : String) : Except FileFault (List String) :=
  if path.isEmpty then .error .missing else disk.follow path (FilePath.parts path)

def readText (disk : Disk) (path : String) : Except FileFault String :=
  match disk.locate path with
  | .error fault => .error fault
  | .ok place =>
    match disk.entryAt place with
    | none => .error .missing
    | some .directory => .error .isDirectory
    | some (.file bytes) =>
      match String.fromUTF8? bytes with
      | some text => .ok text
      | none => .error .notText

def writeText (disk : Disk) (path text : String) : Except FileFault Disk :=
  match disk.locate path with
  | .error fault => .error fault
  | .ok place =>
    match disk.entryAt place with
    | some .directory => .error .isDirectory
    | _ => .ok (disk.put place (.file text.toUTF8))

/-- Slashes at the end do not matter here. -/
def createDirectory (disk : Disk) (path : String) : Except FileFault Disk :=
  let parts := ((FilePath.parts path).reverse.dropWhile (·.isEmpty)).reverse
  match disk.follow path parts with
  | .error fault => .error fault
  | .ok place =>
    match disk.entryAt place with
    | some .directory => .ok disk
    | some (.file _) => .error .occupied
    | none => .ok (disk.put place .directory)

/-- Performs a change that can fail; a failed one changes nothing. -/
def attempt (change : Disk → Except FileFault Disk) : StateM Disk (Except FileFault Unit) :=
  fun disk =>
    match change disk with
    | .ok changed => (.ok (), changed)
    | .error fault => (.error fault, disk)

instance : FileSystem (StateM Disk) where
  readText path := fun disk => (disk.readText path, disk)
  createDirectory path := attempt (·.createDirectory path)
  writeText path text := attempt (·.writeText path text)

/-- Puts a file or a directory below the working directory, with all directories on the way. -/
def populate (disk : Disk) (path : String) (entry : DiskEntry) : Disk :=
  let place := (FilePath.parts path).foldl next disk.workingDirectory
  let ways := (List.range place.length).map place.take
  (ways.foldl (fun made way => made.put way .directory) disk).put place entry

end Disk

end ShapingTables
