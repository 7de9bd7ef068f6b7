import FunctionDiscovery.Bytes

set_option autoImplicit false

namespace FunctionDiscovery

namespace Files

inductive Fault where
  | absent
  | folder
deriving DecidableEq, Repr

def Fault.message : Fault → String
  | .absent => "No such file or directory (os error 2)"
  | .folder => "Is a directory (os error 21)"

end Files

abbrev Files := String → Except Files.Fault Bytes

end FunctionDiscovery
