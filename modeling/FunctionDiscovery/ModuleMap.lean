import FunctionDiscovery.Keyed

set_option autoImplicit false

namespace FunctionDiscovery

structure Module where
  base : Address
  size : UInt64
  path : String
deriving DecidableEq, Repr

def Module.contains (m : Module) (a : Address) : Bool :=
  m.base ≤ a && a - m.base < m.size

structure Resolver where
  base? : Address → Option Address
  path? : Address → Option String

structure ModuleMap where
  modules : List Module := []
deriving DecidableEq, Repr, Inhabited

namespace ModuleMap

-- A module goes before those that have the same base.
def insert (map : ModuleMap) (m : Module) : ModuleMap :=
  ⟨Keyed.insertBefore Module.base m map.modules⟩

def ofList (modules : List Module) : ModuleMap := modules.foldl insert {}

def get? (map : ModuleMap) (a : Address) : Option Module :=
  (Keyed.floor? Module.base a map.modules).filter (·.contains a)

def base? (map : ModuleMap) (a : Address) : Option Address := (map.get? a).map Module.base

def path? (map : ModuleMap) (base : Address) : Option String :=
  (map.modules.find? fun m => m.base == base).map Module.path

def resolver (map : ModuleMap) : Resolver := ⟨map.base?, map.path?⟩

end ModuleMap

end FunctionDiscovery
