import ShapingTables.Attributes
import ShapingTables.Layout
import ShapingTables.Ratio
import ShapingTables.Role
import ShapingTables.SourceFile
import ShapingTables.Text.Numeral

/-! Everything that stops a build, one constructor for each cause, and the text in which
it is reported. -/
namespace ShapingTables

/-- What is wrong with a line of a data file. -/
inductive LineFault where
  | tooFewFields (least found : Nat)
  | badRange (head : String)
  | unknownValue (value : String)
  | badCodepoint (word : String)
  | loneCodepoint (codepoint : Nat)
  deriving DecidableEq, Repr

/-- Why a file or a directory could not be used. -/
inductive FileFault where
  | missing
  | occupied
  | notDirectory
  | isDirectory
  | notText
  /-- A NUL in the path. -/
  | nulInPath
  | pathTooLong
  /-- For a reason of the system's own. -/
  | refused (reason : String)
  deriving DecidableEq, Repr

inductive ConfigFault where
  | layout (fault : LayoutFault)
  | unlistedBlock (name : String)
  deriving DecidableEq, Repr

inductive Fault where
  /-- No role, or more than one. -/
  | ambiguousRole (attributes : Attributes) (matched : List Role)
  /-- No position, or more than one, for a role that needs one. -/
  | ambiguousPosition (codepoint : Nat) (role : Role) (positional : PositionalCategory)
      (matched : List Position)
  | strayPosition (codepoint : Nat) (role : Role) (positional : PositionalCategory)
  | sparseTable (used total : Nat)
  | malformed (file : SourceFile) (line : Nat) (fault : LineFault)
  | missingSource (file : SourceFile) (location version : String)
  | unreadable (path : String) (fault : FileFault)
  /-- One prohibited sequence would begin another one of the same script. -/
  | conflictingSequence (script : String) (sequence : List Nat)
  | unscriptedSequence (sequence : List Nat)
  | invalidConfig (fault : ConfigFault)
  /-- The configuration text is not of the accepted form. -/
  | malformedConfig
  deriving DecidableEq, Repr

def LineFault.message : LineFault → String
  | .tooFewFields least found =>
    "expected at least " ++ toString least ++ " fields, found " ++ toString found
  | .badRange head => "invalid codepoint range '" ++ head ++ "'"
  | .unknownValue value => "unknown property value '" ++ value ++ "'"
  | .badCodepoint word => "invalid codepoint '" ++ word ++ "'"
  | .loneCodepoint codepoint =>
    "prohibited sequence is too short: " ++ Text.hexList [codepoint]

/-- The message with the place in front of it. -/
def LineFault.messageAt (fault : LineFault) (file : String) (line : Nat) : String :=
  file ++ ":" ++ toString line ++ ": " ++ fault.message

def FileFault.message : FileFault → String
  | .missing => "No such file or directory (os error 2)"
  | .occupied => "File exists (os error 17)"
  | .notDirectory => "Not a directory (os error 20)"
  | .isDirectory => "Is a directory (os error 21)"
  | .notText => "stream did not contain valid UTF-8"
  | .nulInPath => "file name contained an unexpected NUL byte"
  | .pathTooLong => "File name too long (os error 36)"
  | .refused reason => reason

def ConfigFault.message : ConfigFault → String
  | .layout fault => fault.message
  | .unlistedBlock name => "blacklisted block '" ++ name ++ "' is not listed in Blocks.txt"

namespace Fault

/-- Names in brackets. -/
def listing (names : List String) : String := "[" ++ ", ".intercalate names ++ "]"

def message : Fault → String
  | .ambiguousRole attributes matched =>
    "classification ambiguity at U+" ++ Text.hex4 attributes.codepoint ++ " (" ++
      attributes.spelling ++ "): matched " ++ listing (matched.map Role.name)
  | .ambiguousPosition codepoint role positional matched =>
    "position ambiguity at U+" ++ Text.hex4 codepoint ++ ": " ++ role.name ++ " with " ++
      positional.ucdName ++ " matched " ++ listing (matched.map Position.name)
  | .strayPosition codepoint role positional =>
    "U+" ++ Text.hex4 codepoint ++ ": " ++ role.name ++ " cannot carry positional category " ++
      positional.ucdName
  | .sparseTable used total =>
    "table too sparse: occupancy " ++ (BinaryFraction.nearest used total).fixed 4 ++
      " below 0.5 (" ++ toString used ++ " of " ++ toString total ++ " entries used)"
  | .malformed file line fault => fault.messageAt file.path line
  | .missingSource file location version =>
    "missing source file " ++ file.path ++ " in " ++ location ++ "; fetch it from " ++
      file.origin version
  | .unreadable path fault => "failed to read " ++ path ++ ": " ++ fault.message
  | .conflictingSequence script sequence =>
    "prohibited sequence " ++ Text.hexList sequence ++ " conflicts with another " ++ script ++
      " sequence"
  | .unscriptedSequence sequence =>
    "prohibited sequence " ++ Text.hexList sequence ++
      " starts with a codepoint that has no script"
  | .invalidConfig fault => "invalid configuration: " ++ fault.message
  | .malformedConfig => "failed to parse configuration: not of the accepted form"

/-- The message, and behind it what it rests on. -/
def causes (fault : Fault) : List String :=
  match fault with
  | .unreadable _ reason => [fault.message, reason.message]
  | .malformedConfig => [fault.message, "not of the accepted form"]
  | _ => [fault.message]

end Fault

end ShapingTables
