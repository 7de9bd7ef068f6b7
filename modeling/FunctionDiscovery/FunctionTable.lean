import FunctionDiscovery.Keyed

set_option autoImplicit false

namespace FunctionDiscovery

structure Record where
  start : Address
  last : Address
  discovered : Bool
deriving DecidableEq, Repr

structure FunctionTable where
  records : List Record := []
deriving DecidableEq, Repr, Inhabited

namespace FunctionTable

def size (table : FunctionTable) : Nat := table.records.length

def get? (table : FunctionTable) (a : Address) : Option Record :=
  (Keyed.floor? Record.start a table.records).filter fun record => a ≤ record.last

def overlaps (table : FunctionTable) (start last : Address) : Bool :=
  (table.get? start).isSome ||
    table.records.any fun record => start ≤ record.start && record.start ≤ last

def insert? (table : FunctionTable) (record : Record) : Option FunctionTable :=
  if record.last < record.start || table.overlaps record.start record.last then none
  else some ⟨Keyed.insert Record.start record table.records⟩

end FunctionTable

end FunctionDiscovery
