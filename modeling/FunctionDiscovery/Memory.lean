import FunctionDiscovery.Bytes
import FunctionDiscovery.Address

set_option autoImplicit false

namespace FunctionDiscovery

inductive PointerWidth where
  | bits32
  | bits64
deriving DecidableEq, Repr

instance : Inhabited PointerWidth := ⟨.bits64⟩

def PointerWidth.bytes : PointerWidth → Nat
  | .bits32 => 4
  | .bits64 => 8

inductive Memory.Fault where
  | unmapped (address : Address) (length : Nat)
  | truncated (address : Address) (wanted got : Nat)
deriving DecidableEq, Repr

def Memory.Fault.message : Memory.Fault → String
  | .unmapped address length =>
    s!"address {address.hex} is not mapped (wanted {Numeral.hex length} bytes)"
  | .truncated address wanted got =>
    s!"read at {address.hex} ran off the mapping after {Numeral.hex got} of " ++
      s!"{Numeral.hex wanted} bytes"

structure Memory where
  read : (address : Address) → (length : Nat) → Except Memory.Fault Bytes
  isReadable : Address → Bool

def Memory.readPointer (memory : Memory) (address : Address) (width : PointerWidth) :
    Except Memory.Fault Address :=
  (memory.read address width.bytes).map fun bytes => UInt64.ofNat bytes.toNat

end FunctionDiscovery
