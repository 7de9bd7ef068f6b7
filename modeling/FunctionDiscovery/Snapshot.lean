import FunctionDiscovery.Keyed
import FunctionDiscovery.Memory

set_option autoImplicit false

namespace FunctionDiscovery

structure Region where
  start : Address
  stored : Bytes
  zeros : Nat := 0
deriving DecidableEq, Repr

namespace Region

def bytes (region : Region) : Bytes := region.stored ++ List.replicate region.zeros 0

def size (region : Region) : Nat := region.stored.length + region.zeros

def slice (region : Region) (offset length : Nat) : Bytes :=
  let piece := (region.stored.drop offset).take length
  piece ++ List.replicate (length - piece.length) 0

def offset (region : Region) (a : Address) : Nat := (a - region.start).toNat

end Region

-- Only the region that starts last at or before an address can hold it: where regions overlap, the later start
-- hides the rest of the one before it.
structure Snapshot where
  regions : List Region := []
deriving DecidableEq, Repr, Inhabited

namespace Snapshot

def insert (snapshot : Snapshot) (region : Region) : Snapshot :=
  ⟨Keyed.insert Region.start region snapshot.regions⟩

def map (snapshot : Snapshot) (start : Address) (bytes : Bytes) : Snapshot :=
  snapshot.insert { start, stored := bytes }

def mapPointer (snapshot : Snapshot) (start value : Address) (width : PointerWidth) : Snapshot :=
  snapshot.map start (Bytes.ofNat width.bytes value.toNat)

def region? (snapshot : Snapshot) (a : Address) : Option Region :=
  match Keyed.floor? Region.start a snapshot.regions with
  | none => none
  | some region => if region.offset a < region.size then some region else none

def read (snapshot : Snapshot) (a : Address) (length : Nat) : Except Memory.Fault Bytes :=
  match snapshot.region? a with
  | none => .error (.unmapped a length)
  | some region =>
    let available := region.size - region.offset a
    if available < length then .error (.truncated a length available)
    else .ok (region.slice (region.offset a) length)

def isReadable (snapshot : Snapshot) (a : Address) : Bool := (snapshot.region? a).isSome

def memory (snapshot : Snapshot) : Memory := ⟨snapshot.read, snapshot.isReadable⟩

end Snapshot

end FunctionDiscovery
