import FunctionDiscovery.Bytes

set_option autoImplicit false

namespace FunctionDiscovery.Utf8

-- The bytes that may follow a lead byte: how many there are, and the range of the first. Overlong forms,
-- surrogates and numbers past the last code point are excluded by that range.
structure Tail where
  count : Nat
  low : UInt8
  high : UInt8

def tail? (lead : UInt8) : Option Tail :=
  if lead < 0x80 then some ⟨0, 0x80, 0xbf⟩
  else if lead < 0xc2 then none
  else if lead < 0xe0 then some ⟨1, 0x80, 0xbf⟩
  else if lead = 0xe0 then some ⟨2, 0xa0, 0xbf⟩
  else if lead = 0xed then some ⟨2, 0x80, 0x9f⟩
  else if lead < 0xf0 then some ⟨2, 0x80, 0xbf⟩
  else if lead = 0xf0 then some ⟨3, 0x90, 0xbf⟩
  else if lead < 0xf4 then some ⟨3, 0x80, 0xbf⟩
  else if lead = 0xf4 then some ⟨3, 0x80, 0x8f⟩
  else none

def leadBits (lead : UInt8) : Nat :=
  if lead < 0x80 then lead.toNat
  else if lead < 0xe0 then lead.toNat % 0x20
  else if lead < 0xf0 then lead.toNat % 0x10
  else lead.toNat % 0x08

/-- Decodes bytes, of which the first ones continue a character that was begun: `count` more bytes are due,
the next one between `low` and `high`, and `value` holds the bits so far. A start of a character that is not
completed becomes `none`. -/
def scan (count : Nat) (low high : UInt8) (value : Nat) : Bytes → List (Option Char)
  | [] => if count = 0 then [] else [none]
  | b :: rest =>
    if count ≠ 0 ∧ low ≤ b ∧ b ≤ high then
      let value := value * 0x40 + b.toNat % 0x40
      if count = 1 then some (Char.ofNat value) :: scan 0 0 0 0 rest
      else scan (count - 1) 0x80 0xbf value rest
    else
      let broken := if count = 0 then [] else [none]
      match tail? b with
      | none => broken ++ none :: scan 0 0 0 0 rest
      | some ⟨0, _, _⟩ => broken ++ some (Char.ofNat b.toNat) :: scan 0 0 0 0 rest
      | some ⟨due, low, high⟩ => broken ++ scan due low high (leadBits b) rest

def pieces (bytes : Bytes) : List (Option Char) := scan 0 0 0 0 bytes

def decode? (bytes : Bytes) : Option String :=
  ((pieces bytes).mapM id).map String.ofList

def decodeLenient (bytes : Bytes) : String :=
  String.ofList ((pieces bytes).map (·.getD '\ufffd'))

def encode (code : Nat) : Bytes :=
  if code < 0x80 then [code.toUInt8]
  else if code < 0x800 then [(0xc0 + code / 0x40).toUInt8, (0x80 + code % 0x40).toUInt8]
  else if code < 0x10000 then
    [(0xe0 + code / 0x1000).toUInt8, (0x80 + code / 0x40 % 0x40).toUInt8,
      (0x80 + code % 0x40).toUInt8]
  else
    [(0xf0 + code / 0x40000).toUInt8, (0x80 + code / 0x1000 % 0x40).toUInt8,
      (0x80 + code / 0x40 % 0x40).toUInt8, (0x80 + code % 0x40).toUInt8]

end FunctionDiscovery.Utf8
