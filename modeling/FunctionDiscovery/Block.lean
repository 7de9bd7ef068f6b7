import FunctionDiscovery.Address

set_option autoImplicit false

namespace FunctionDiscovery

namespace Flags

def call : UInt32 := 1

def indirect : UInt32 := 2

def claimed : UInt32 := 4

def has (flags bit : UInt32) : Bool := flags &&& bit == bit

end Flags

-- Flag bits without a meaning here are kept as they are.
structure Block where
  start : Address
  stop : Address
  target : Address := 0
  flags : UInt32 := 0
deriving DecidableEq, Repr, Inhabited

namespace Block

def direct (start stop target : Address) : Block :=
  ⟨start, stop, target, Flags.call⟩

def through (start stop cell : Address) : Block :=
  ⟨start, stop, cell, Flags.call ||| Flags.indirect⟩

def isCall (block : Block) : Bool := Flags.has block.flags Flags.call

def isIndirect (block : Block) : Bool := Flags.has block.flags Flags.indirect

def isClaimed (block : Block) : Bool := Flags.has block.flags Flags.claimed

def contains (block : Block) (a : Address) : Bool :=
  block.start ≤ a && a < block.stop

def claim (block : Block) : Block :=
  { block with flags := block.flags ||| Flags.claimed }

end Block

end FunctionDiscovery
