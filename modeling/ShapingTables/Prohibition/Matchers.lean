import ShapingTables.Prohibition.Buffer
import ShapingTables.Prohibition.Sequence
import ShapingTables.Script

/-! Each prohibited sequence belongs to the script of its first codepoint, and each script
with such sequences has one trie. The tries stand in script order. -/
namespace ShapingTables

structure ScriptMatchers where
  tries : List SequenceTrie
  deriving DecidableEq, Repr

namespace ScriptMatchers

def scripts (matchers : ScriptMatchers) : List String := matchers.tries.map (·.script)

/-- The last trie of a script. -/
def find? (matchers : ScriptMatchers) (script : String) : Option SequenceTrie :=
  matchers.tries.reverse.find? (·.script == script)

/-- A script without prohibited sequences leaves every buffer as it is. -/
def fix (matchers : ScriptMatchers) (script : String) (buffer : GlyphBuffer) :
    GlyphBuffer × Bool :=
  match matchers.find? script with
  | some trie => buffer.fix trie
  | none => (buffer, false)

/-- Inserts a sequence into the trie of a script, a new one if there is none yet. -/
def insertFor (script : String) (sequence : List Nat) :
    List SequenceTrie → Except Fault (List SequenceTrie)
  | [] => grown (.empty script) []
  | trie :: rest =>
    if trie.script = script then grown trie rest
    else (insertFor script sequence rest).map (trie :: ·)
where
  grown (trie : SequenceTrie) (rest : List SequenceTrie) : Except Fault (List SequenceTrie) :=
    match trie.insert sequence with
    | (larger, true) => .ok (larger :: rest)
    | (_, false) => .error (.conflictingSequence script sequence)

/-- Adds one sequence under the script of its first codepoint. -/
def add (scripts : ScriptTable) (tries : List SequenceTrie) (sequence : ProhibitedSequence) :
    Except Fault (List SequenceTrie) :=
  match scripts.scriptOf? (sequence.codepoints.headD 0) with
  | some script => insertFor script sequence.codepoints tries
  | none => .error (.unscriptedSequence sequence.codepoints)

/-- Scripts that the table does not order come first. -/
def inOrder (scripts : ScriptTable) (a b : SequenceTrie) : Bool :=
  match scripts.orderOf? a.script, scripts.orderOf? b.script with
  | none, _ => true
  | some _, none => false
  | some i, some j => i ≤ j

/-- The matchers of a list of sequences, or the fault of the first sequence that
has no script or conflicts with an earlier one. -/
def ofSequences (scripts : ScriptTable) (sequences : List ProhibitedSequence) :
    Except Fault ScriptMatchers :=
  (sequences.foldlM (add scripts) []).map fun tries => ⟨tries.mergeSort (inOrder scripts)⟩

end ScriptMatchers

end ShapingTables
