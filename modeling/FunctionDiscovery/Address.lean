import FunctionDiscovery.Text.Blank
import FunctionDiscovery.Text.Numeral
import FunctionDiscovery.Text.Quoted

set_option autoImplicit false

namespace FunctionDiscovery

abbrev Address := UInt64

structure AddressRange where
  start : Address
  stop : Address
deriving DecidableEq, Repr, Inhabited

def AddressRange.contains (range : AddressRange) (a : Address) : Bool :=
  range.start ≤ a && a < range.stop

namespace Address

def hex (a : Address) : String := Numeral.hex a.toNat

def decimal (a : Address) : String := Numeral.decimal a.toNat

structure Fault where
  text : String
  cause : Numeral.Fault
deriving DecidableEq, Repr

def Fault.summary (fault : Fault) : String :=
  "Invalid address: " ++ Text.quoted fault.text

def Fault.message (fault : Fault) : String :=
  fault.summary ++ ": " ++ fault.cause.message

def numeral : List Char → Except Numeral.Fault Nat
  | '0' :: 'x' :: digits => Numeral.parse 16 UInt64.size digits
  | '0' :: 'X' :: digits => Numeral.parse 16 UInt64.size digits
  | digits => Numeral.parse 10 UInt64.size digits

def parse (text : String) : Except Fault Address :=
  let trimmed := Text.trim text.toList
  match numeral trimmed with
  | .ok value => .ok (UInt64.ofNat value)
  | .error cause => .error ⟨String.ofList trimmed, cause⟩

end Address

end FunctionDiscovery
