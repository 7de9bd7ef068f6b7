import FunctionDiscovery.BlockMap

set_option autoImplicit false

namespace FunctionDiscovery.Shard

def clampWorkers (length workers : Nat) : Nat := min (max workers 1) (max length 1)

def chunk (length workers : Nat) : Nat :=
  (length + clampWorkers length workers - 1) / clampWorkers length workers

def shard (length size index : Nat) : IndexRange :=
  let first := min (size * index) length
  ⟨first, min (first + size) length⟩

def partition (length workers : Nat) : List IndexRange :=
  ((List.range (clampWorkers length workers)).map (shard length (chunk length workers))).filter
    fun range => !range.isEmpty

end FunctionDiscovery.Shard
