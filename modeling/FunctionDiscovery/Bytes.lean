set_option autoImplicit false

namespace FunctionDiscovery

abbrev Bytes := List UInt8

namespace Bytes

def slice? (bytes : Bytes) (offset length : Nat) : Option Bytes :=
  let piece := (bytes.drop offset).take length
  if offset ≤ bytes.length ∧ piece.length = length then some piece else none

def toNat : Bytes → Nat
  | [] => 0
  | b :: rest => b.toNat + 256 * toNat rest

def ofNat : (width value : Nat) → Bytes
  | 0, _ => []
  | width + 1, value => UInt8.ofNat (value % 256) :: ofNat width (value / 256)

def field? (bytes : Bytes) (offset width : Nat) : Option Nat :=
  (bytes.slice? offset width).map toNat

end Bytes

end FunctionDiscovery
