import FunctionDiscovery.Files
import FunctionDiscovery.Image

set_option autoImplicit false

namespace FunctionDiscovery.Image

inductive Fault where
  | missing (name : String)
  | folder
  | format (fault : FormatFault)
  | foreign (name : String) (kind : Foreign)
  | headers
  | optionalHeaderTooSmall
  | optionalHeader
  | directoryCount
  | sectionHeaders
deriving DecidableEq, Repr

def Fault.summary : Fault → String
  | .missing name => "Failed to open image: " ++ name
  | .folder => "No such device (os error 19)"
  | .format fault => fault.message
  | .foreign name kind => s!"{name} is not a PE image ({kind.name})"
  | .headers => "Invalid PE headers offset or size"
  | .optionalHeaderTooSmall => "PE optional header size is too small"
  | .optionalHeader => "Invalid PE optional header size"
  | .directoryCount => "Invalid PE number of RVA and sizes"
  | .sectionHeaders => "Invalid COFF/PE section headers"

def Fault.message (fault : Fault) : String :=
  match fault with
  | .missing _ => fault.summary ++ ": " ++ Files.Fault.absent.message
  | fault => fault.summary

def directorySize : Nat := 8

def sectionHeaderSize : Nat := 40

def word (bytes : Bytes) (offset width : Nat) : Nat :=
  Bytes.toNat ((bytes.drop offset).take width)

def word32 (bytes : Bytes) (offset : Nat) : UInt32 := UInt32.ofNat (word bytes offset 4)

def readDirectory (bytes : Bytes) : Directory := ⟨word32 bytes 0, word32 bytes 4⟩

-- Names fill eight bytes or end before a zero byte. Data past the end of the file is taken as absent.
def readSection (fileSize : Nat) (header : Bytes) : Section where
  name := Utf8.decodeLenient ((header.take 8).takeWhile (· ≠ 0))
  virtualSize := word32 header 8
  virtualAddress := word32 header 12
  fileRange :=
    let start := word header 20 4
    ⟨min start fileSize, min (start + word header 16 4) fileSize⟩

def records {α : Type} (size : Nat) (read : Bytes → α) : (count : Nat) → Bytes → List α
  | 0, _ => []
  | count + 1, bytes => read (bytes.take size) :: records size read count (bytes.drop size)

def preferredBase (kind : Kind) (optional : Bytes) : Address :=
  match kind with
  | .pe32 => UInt64.ofNat (word optional 28 4)
  | .pe64 => UInt64.ofNat (word optional 24 8)

def directoryCount (kind : Kind) (optional : Bytes) : Nat :=
  word optional (kind.optionalHeaderSize - 4) 4

def parse (kind : Kind) (data : Bytes) : Except Fault Image := do
  let some offset := headerOffset? data | .error .headers
  let some headers := data.slice? offset (fileHeaderSize + kind.optionalHeaderSize)
    | .error .headers
  let optional := headers.drop fileHeaderSize
  let optionalSize := word headers 20 2
  if optionalSize < kind.optionalHeaderSize then .error .optionalHeaderTooSmall
  let some tables := data.slice? (offset + fileHeaderSize + kind.optionalHeaderSize)
      (optionalSize - kind.optionalHeaderSize)
    | .error .optionalHeader
  let count := directoryCount kind optional
  if tables.length < count * directorySize then .error .directoryCount
  let sectionCount := word headers 6 2
  let some sectionHeaders := data.slice? (offset + fileHeaderSize + optionalSize)
      (sectionCount * sectionHeaderSize)
    | .error .sectionHeaders
  return {
    data
    kind
    base := preferredBase kind optional
    sizeOfImage := word32 optional 56
    sizeOfHeaders := word32 optional 60
    directories := records directorySize readDirectory count tables
    sections := records sectionHeaderSize (readSection data.length) sectionCount sectionHeaders }

-- A folder can be opened, but not mapped.
def ofFile (name : String) (file : Except Files.Fault Bytes) : Except Fault Image :=
  match file with
  | .error .absent => .error (.missing name)
  | .error .folder => .error .folder
  | .ok data =>
    match format data with
    | .error fault => .error (.format fault)
    | .ok (.foreign kind) => .error (.foreign name kind)
    | .ok (.image kind) => parse kind data

end FunctionDiscovery.Image
