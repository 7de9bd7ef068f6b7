import FunctionDiscovery.Address

set_option autoImplicit false

namespace FunctionDiscovery

/-- `touch` notes that memory was asked about an address, `poll` answers whether to stop. The answer may
depend on anything that went before. -/
structure Watch (σ : Type) where
  touch : Address → σ → σ
  poll : σ → Bool × σ

namespace Watch

variable {σ : Type}

def touchAll (watch : Watch σ) (addresses : List Address) (state : σ) : σ :=
  addresses.foldl (fun state a => watch.touch a state) state

def never : Watch Unit := ⟨fun _ state => state, fun state => (false, state)⟩

def flag (trigger : Option Address) : Watch (Option Bool) where
  touch a state := if trigger = some a then state.map fun _ => true else state
  poll state := (state.getD false, state)

end Watch

end FunctionDiscovery
