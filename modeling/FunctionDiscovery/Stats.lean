set_option autoImplicit false

namespace FunctionDiscovery

structure Stats where
  runtimeFunctions : Nat := 0
  callEdges : Nat := 0
  unreadablePointers : Nat := 0
  unreadableTargets : Nat := 0
  outOfBounds : Nat := 0
  unresolved : Nat := 0
deriving DecidableEq, Repr, Inhabited

namespace Stats

def add (a b : Stats) : Stats where
  runtimeFunctions := a.runtimeFunctions + b.runtimeFunctions
  callEdges := a.callEdges + b.callEdges
  unreadablePointers := a.unreadablePointers + b.unreadablePointers
  unreadableTargets := a.unreadableTargets + b.unreadableTargets
  outOfBounds := a.outOfBounds + b.outOfBounds
  unresolved := a.unresolved + b.unresolved

instance : Add Stats := ⟨add⟩

end Stats

end FunctionDiscovery
