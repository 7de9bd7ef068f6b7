import FunctionDiscovery.Bytes

set_option autoImplicit false

namespace FunctionDiscovery.Image

inductive Kind where
  | pe32
  | pe64
deriving DecidableEq, Repr

def Kind.name : Kind → String
  | .pe32 => "Pe32"
  | .pe64 => "Pe64"

inductive Foreign where
  | archive
  | dyldCache
  | elf32
  | elf64
  | machO32
  | machO64
  | machOFat32
  | machOFat64
  | coff
  | coffImport
  | coffBig
  | xcoff32
  | xcoff64
deriving DecidableEq, Repr

def Foreign.name : Foreign → String
  | .archive => "Archive"
  | .dyldCache => "DyldCache"
  | .elf32 => "Elf32"
  | .elf64 => "Elf64"
  | .machO32 => "MachO32"
  | .machO64 => "MachO64"
  | .machOFat32 => "MachOFat32"
  | .machOFat64 => "MachOFat64"
  | .coff => "Coff"
  | .coffImport => "CoffImport"
  | .coffBig => "CoffBig"
  | .xcoff32 => "Xcoff32"
  | .xcoff64 => "Xcoff64"

inductive Format where
  | image (kind : Kind)
  | foreign (kind : Foreign)
deriving DecidableEq, Repr

inductive FormatFault where
  | tooShort
  | unknown
  | unknownDos
  | unknownAnonymous
deriving DecidableEq, Repr

def FormatFault.message : FormatFault → String
  | .tooShort => "Could not read file magic"
  | .unknown => "Unknown file magic"
  | .unknownDos => "Unknown MS-DOS file"
  | .unknownAnonymous => "Unknown anon object file"

def signatures : List (Bytes × Foreign) := [
  ([0x21, 0x3c, 0x61, 0x72, 0x63, 0x68, 0x3e, 0x0a], .archive),
  ([0x21, 0x3c, 0x74, 0x68, 0x69, 0x6e, 0x3e, 0x0a], .archive),
  ([0x64, 0x79, 0x6c, 0x64, 0x5f, 0x76, 0x31, 0x20], .dyldCache),
  ([0x7f, 0x45, 0x4c, 0x46, 0x01], .elf32),
  ([0x7f, 0x45, 0x4c, 0x46, 0x02], .elf64),
  ([0xfe, 0xed, 0xfa, 0xce], .machO32),
  ([0xce, 0xfa, 0xed, 0xfe], .machO32),
  ([0xfe, 0xed, 0xfa, 0xcf], .machO64),
  ([0xcf, 0xfa, 0xed, 0xfe], .machO64),
  ([0xca, 0xfe, 0xba, 0xbe], .machOFat32),
  ([0xca, 0xfe, 0xba, 0xbf], .machOFat64),
  ([0xc4, 0x01], .coff),
  ([0x64, 0xaa], .coff),
  ([0x41, 0xa6], .coff),
  ([0x4c, 0x01], .coff),
  ([0x64, 0x86], .coff),
  ([0x00, 0x00, 0xff, 0xff, 0x00, 0x00], .coffImport),
  ([0x01, 0xdf], .xcoff32),
  ([0x01, 0xf7], .xcoff64)]

def dosSignature : Bytes := [0x4d, 0x5a]

def ntSignature : Bytes := [0x50, 0x45, 0x00, 0x00]

def anonymousSignature : Bytes := [0x00, 0x00, 0xff, 0xff, 0x02, 0x00]

def bigObjectClass : Bytes := [
  0xc7, 0xa1, 0xba, 0xd1, 0xee, 0xba, 0xa9, 0x4b, 0xaf, 0x20, 0xfa, 0xf6, 0x6a, 0xa4, 0xdc, 0xb8]

def magicSize : Nat := 16

def dosHeaderSize : Nat := 64

def fileHeaderSize : Nat := 24

def Kind.optionalHeaderSize : Kind → Nat
  | .pe32 => 96
  | .pe64 => 112

def headerOffset? (data : Bytes) : Option Nat :=
  if data.length < dosHeaderSize then none else data.field? 60 4

-- The kind that the optional header's magic number tells. The shorter header must be there in full.
def kind? (data : Bytes) : Option Kind := do
  let offset ← headerOffset? data
  let headers ← data.slice? offset (fileHeaderSize + Kind.pe32.optionalHeaderSize)
  if headers.take 4 ≠ ntSignature then none
  else
    match headers.field? fileHeaderSize 2 with
    | some 0x10b => some .pe32
    | some 0x20b => some .pe64
    | _ => none

def anonymousClass? (data : Bytes) : Option Bytes := do
  let header ← data.slice? 0 32
  header.slice? 12 16

def format (data : Bytes) : Except FormatFault Format :=
  if data.length < magicSize then .error .tooShort
  else if dosSignature.isPrefixOf data then
    match kind? data with
    | some kind => .ok (.image kind)
    | none => .error .unknownDos
  else if anonymousSignature.isPrefixOf data then
    if anonymousClass? data = some bigObjectClass then .ok (.foreign .coffBig)
    else .error .unknownAnonymous
  else
    match signatures.find? fun (start, _) => start.isPrefixOf data with
    | some (_, kind) => .ok (.foreign kind)
    | none => .error .unknown

end FunctionDiscovery.Image
