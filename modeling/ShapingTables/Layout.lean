/-! Three numbers that shape the compacted table and never change what it answers. -/
namespace ShapingTables

structure Layout where
  /-- Regions start and end at multiples of this. -/
  alignment : Nat
  /-- A range extends the region before it if it starts at most this far behind its end. -/
  maxGap : Nat
  /-- The bits of a codepoint that are dropped to get its page. -/
  pageBits : Nat
  deriving DecidableEq, Repr

inductive LayoutFault where
  | alignment (found : Nat)
  | pageBits (found : Nat)
  deriving DecidableEq, Repr

namespace Layout

def standard : Layout := ⟨8, 49, 12⟩

instance : Inhabited Layout := ⟨standard⟩

def isPowerOfTwo (n : Nat) : Bool := n != 0 && Nat.pow 2 n.log2 == n

/-- The alignment is looked at first. -/
def fault? (layout : Layout) : Option LayoutFault :=
  if !isPowerOfTwo layout.alignment then some (.alignment layout.alignment)
  else if layout.pageBits < 1 ∨ 21 < layout.pageBits then some (.pageBits layout.pageBits)
  else none

end Layout

def LayoutFault.message : LayoutFault → String
  | .alignment found => "alignment must be a power of two, got " ++ toString found
  | .pageBits found => "page_bits must be within 1..=21, got " ++ toString found

end ShapingTables
