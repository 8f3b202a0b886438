import ShapingTables.Fault
import ShapingTables.Json.Value

/-! Where the data files are, of which Unicode version they are, which blocks are left out
of the category table, and the layout of that table. A configuration is written in JSON,
as an object or as an array with the fields in order. Every field may be left out. Members
of other names are ignored. -/
namespace ShapingTables

structure Config where
  dataDir : String
  unicodeVersion : String
  blacklistedBlocks : List String
  layout : Layout
  deriving DecidableEq, Repr

namespace Config

def standard : Config := ⟨".", "13.0.0", ["Samaritan", "Thai", "Lao"], .standard⟩

instance : Inhabited Config := ⟨standard⟩

open Json (Value)

/-- A whole number of 32 bits, written without sign, point or exponent. -/
def word? : Value → Option Nat
  | .number written =>
    if written.toList.all Char.isDigit then
      let value := written.toList.foldl (fun n c => 10 * n + (c.toNat - 48)) 0
      if value < 0x100000000 then some value else none
    else none
  | _ => none

def string? : Value → Option String
  | .string text => text
  | _ => none

def strings? : Value → Option (List String)
  | .array items => items.mapM string?
  | _ => none

/-- The values of the fields, in order, of an object or an array. A name must be
well formed and may occur once; an array may end early. -/
def fields? (names : List String) : Value → Option (List (Option Value))
  | .object members =>
    if members.all (·.1.isSome) &&
        names.all (fun name => (members.filter (·.1 == some name)).length ≤ 1) then
      some (names.map fun name => (members.find? (·.1 == some name)).map (·.2))
    else none
  | .array items =>
    if items.length ≤ names.length then
      some (items.map some ++ List.replicate (names.length - items.length) none)
    else none
  | _ => none

/-- The standard value where the field is left out. -/
def field? (standard : α) (read? : Value → Option α) : Option Value → Option α
  | none => some standard
  | some value => read? value

def layout? (value : Value) : Option Layout :=
  match fields? ["alignment", "max_gap", "page_bits"] value with
  | some [alignment, maxGap, pageBits] => do
    return {
      alignment := ← field? Layout.standard.alignment word? alignment
      maxGap := ← field? Layout.standard.maxGap word? maxGap
      pageBits := ← field? Layout.standard.pageBits word? pageBits }
  | _ => none

def ofValue? (value : Value) : Option Config :=
  match fields? ["data_dir", "unicode_version", "blacklisted_blocks", "layout"] value with
  | some [dataDir, unicodeVersion, blacklistedBlocks, layout] => do
    return {
      dataDir := ← field? standard.dataDir string? dataDir
      unicodeVersion := ← field? standard.unicodeVersion string? unicodeVersion
      blacklistedBlocks := ← field? standard.blacklistedBlocks strings? blacklistedBlocks
      layout := ← field? standard.layout layout? layout }
  | _ => none

/-- The whole text is read before the layout is checked. -/
def ofText (text : String) : Except Fault Config :=
  match (Json.read? text.toList).bind ofValue? with
  | none => .error .malformedConfig
  | some config =>
    match config.layout.fault? with
    | some fault => .error (.invalidConfig (.layout fault))
    | none => .ok config

end Config

end ShapingTables
