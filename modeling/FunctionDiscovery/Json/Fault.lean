set_option autoImplicit false

namespace FunctionDiscovery.Json

inductive Fault where
  | malformed
  | endOfInput
  | mismatch
deriving DecidableEq, Repr

def Fault.message : Fault → String
  | .malformed => "the text is not valid JSON"
  | .endOfInput => "the text ends inside a value"
  | .mismatch => "the value does not have the expected form"

end FunctionDiscovery.Json
