import FunctionDiscovery.BlockMap
import FunctionDiscovery.Json.Value

set_option autoImplicit false

namespace FunctionDiscovery

namespace Listing

inductive Written where
  | number (value : Address)
  | text (value : String)
deriving DecidableEq, Repr

def Written.address : Written → Except Address.Fault Address
  | .number value => .ok value
  | .text value => Address.parse value

structure Entry where
  start : Written
  stop : Written
  target : Option Written := none
  call : Bool := false
  indirect : Bool := false
deriving DecidableEq, Repr

def Entry.flags (entry : Entry) : UInt32 :=
  (if entry.call then Flags.call else 0) |||
    (if entry.call && entry.indirect then Flags.indirect else 0)

def Entry.block (entry : Entry) : Except Address.Fault Block := do
  let start ← entry.start.address
  let stop ← entry.stop.address
  let target ← match entry.target with
    | none => .ok 0
    | some target => target.address
  return ⟨start, stop, target, entry.flags⟩

end Listing

end FunctionDiscovery
