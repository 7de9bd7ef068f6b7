import FunctionDiscovery.Address
import FunctionDiscovery.Bytes

set_option autoImplicit false

namespace FunctionDiscovery

structure RuntimeFunction where
  start : UInt32
  stop : UInt32
  unwind : UInt32
deriving DecidableEq, Repr

namespace RuntimeFunction

def range (record : RuntimeFunction) (base : Address) : AddressRange :=
  ⟨base + record.start.toUInt64, base + record.stop.toUInt64⟩

def encode (record : RuntimeFunction) : Bytes :=
  Bytes.ofNat 4 record.start.toNat ++ Bytes.ofNat 4 record.stop.toNat ++
    Bytes.ofNat 4 record.unwind.toNat

def encodeAll (records : List RuntimeFunction) : Bytes := records.flatMap encode

def word (a b c d : UInt8) : UInt32 := UInt32.ofNat (Bytes.toNat [a, b, c, d])

def decodeAll : Bytes → List RuntimeFunction
  | a :: b :: c :: d :: e :: f :: g :: h :: i :: j :: k :: l :: rest =>
    ⟨word a b c d, word e f g h, word i j k l⟩ :: decodeAll rest
  | _ => []

def visited (stops : RuntimeFunction → Bool) : List RuntimeFunction → List RuntimeFunction
  | [] => []
  | record :: rest => record :: if stops record then [] else visited stops rest

end RuntimeFunction

end FunctionDiscovery
