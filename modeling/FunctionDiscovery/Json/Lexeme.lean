import FunctionDiscovery.Bytes
import FunctionDiscovery.Json.Fault
import FunctionDiscovery.Text.Utf8

set_option autoImplicit false

namespace FunctionDiscovery.Json

@[match_pattern] abbrev quote : UInt8 := 0x22
@[match_pattern] abbrev plus : UInt8 := 0x2b
@[match_pattern] abbrev comma : UInt8 := 0x2c
@[match_pattern] abbrev minus : UInt8 := 0x2d
@[match_pattern] abbrev point : UInt8 := 0x2e
@[match_pattern] abbrev zero : UInt8 := 0x30
@[match_pattern] abbrev colon : UInt8 := 0x3a
@[match_pattern] abbrev capitalE : UInt8 := 0x45
@[match_pattern] abbrev openBracket : UInt8 := 0x5b
@[match_pattern] abbrev backslash : UInt8 := 0x5c
@[match_pattern] abbrev closeBracket : UInt8 := 0x5d
@[match_pattern] abbrev letterE : UInt8 := 0x65
@[match_pattern] abbrev letterF : UInt8 := 0x66
@[match_pattern] abbrev letterN : UInt8 := 0x6e
@[match_pattern] abbrev letterT : UInt8 := 0x74
@[match_pattern] abbrev letterU : UInt8 := 0x75
@[match_pattern] abbrev openBrace : UInt8 := 0x7b
@[match_pattern] abbrev closeBrace : UInt8 := 0x7d

def ascii (text : String) : Bytes := text.toList.map fun c => c.toNat.toUInt8

def isBlank (b : UInt8) : Bool := b == 0x20 || b == 0x0a || b == 0x0d || b == 0x09

def skipBlank (input : Bytes) : Bytes := input.dropWhile isBlank

def expect : (word input : Bytes) → Except Fault Bytes
  | [], input => .ok input
  | _ :: _, [] => .error .endOfInput
  | w :: word, b :: input => if w = b then expect word input else .error .malformed

/-- How a value is treated. A kept value is checked throughout, and may stand inside no more than `depthLimit`
brackets; `depth` of them are open around it. Of a skipped one only the grammar matters. -/
inductive Care where
  | kept (depth : Nat)
  | skipped
deriving DecidableEq, Repr

def depthLimit : Nat := 127

def escape? (b : UInt8) : Option UInt8 :=
  match b with
  | 0x22 => some 0x22
  | 0x5c => some 0x5c
  | 0x2f => some 0x2f
  | 0x62 => some 0x08
  | 0x66 => some 0x0c
  | 0x6e => some 0x0a
  | 0x72 => some 0x0d
  | 0x74 => some 0x09
  | _ => none

def hexDigit? (b : UInt8) : Option Nat :=
  if 0x30 ≤ b ∧ b ≤ 0x39 then some (b.toNat - 0x30)
  else if 0x41 ≤ b ∧ b ≤ 0x46 then some (b.toNat - 0x41 + 10)
  else if 0x61 ≤ b ∧ b ≤ 0x66 then some (b.toNat - 0x61 + 10)
  else none

def unit? (a b c d : UInt8) : Option Nat := do
  return (((← hexDigit? a) * 16 + (← hexDigit? b)) * 16 + (← hexDigit? c)) * 16 + (← hexDigit? d)

def isLeading (unit : Nat) : Bool := 0xd800 ≤ unit && unit ≤ 0xdbff

def isTrailing (unit : Nat) : Bool := 0xdc00 ≤ unit && unit ≤ 0xdfff

def joined (leading trailing : Nat) : Nat :=
  0x10000 + (leading - 0xd800) * 0x400 + (trailing - 0xdc00)

def prepend (bytes : Bytes) (read : Except Fault (Bytes × Bytes)) : Except Fault (Bytes × Bytes) :=
  read.map fun (content, rest) => (bytes ++ content, rest)

def content (care : Care) : Bytes → Except Fault (Bytes × Bytes)
  | [] => .error .endOfInput
  | quote :: rest => .ok ([], rest)
  | [backslash] => .error .endOfInput
  | backslash :: letterU :: a :: b :: c :: d :: rest =>
    match unit? a b c d with
    | none => .error .malformed
    | some unit =>
      -- Only in a string that is kept do surrogates have to come in pairs.
      if care = .skipped then content care rest
      else if isTrailing unit then .error .malformed
      else if isLeading unit then
        match rest with
        | [] => .error .endOfInput
        | [backslash] => .error .endOfInput
        | backslash :: letterU :: e :: f :: g :: h :: rest =>
          match unit? e f g h with
          | none => .error .malformed
          | some low =>
            if isTrailing low then prepend (Utf8.encode (joined unit low)) (content care rest)
            else .error .malformed
        | backslash :: letterU :: _ => .error .endOfInput
        | _ => .error .malformed
      else prepend (Utf8.encode unit) (content care rest)
  | backslash :: letterU :: _ => .error .endOfInput
  | backslash :: b :: rest =>
    match escape? b with
    | none => .error .malformed
    | some c => prepend [c] (content care rest)
  | b :: rest => if b < 0x20 then .error .malformed else prepend [b] (content care rest)

-- A kept string must be UTF-8, which shows only at its end.
def text (care : Care) (input : Bytes) : Except Fault (String × Bytes) :=
  match content care input with
  | .error fault => .error fault
  | .ok (bytes, rest) =>
    match care with
    | .skipped => .ok ("", rest)
    | .kept _ =>
      match Utf8.decode? bytes with
      | none => .error .malformed
      | some text => .ok (text, rest)

end FunctionDiscovery.Json
