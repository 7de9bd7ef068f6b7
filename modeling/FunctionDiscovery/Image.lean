import FunctionDiscovery.Image.Format
import FunctionDiscovery.Memory
import FunctionDiscovery.Text.Utf8

set_option autoImplicit false

namespace FunctionDiscovery

namespace Image

def Kind.pointerWidth : Kind → PointerWidth
  | .pe32 => .bits32
  | .pe64 => .bits64

structure Directory where
  virtualAddress : UInt32
  size : UInt32
deriving DecidableEq, Repr

structure FileRange where
  start : Nat
  stop : Nat
deriving DecidableEq, Repr

def FileRange.length (range : FileRange) : Nat := range.stop - range.start

structure Section where
  name : String
  virtualAddress : UInt32
  virtualSize : UInt32
  fileRange : FileRange
deriving DecidableEq, Repr

-- The room that a section takes in memory. One without a virtual size takes that of its data.
def Section.mappedSize (s : Section) : Nat :=
  if s.virtualSize = 0 then s.fileRange.length else s.virtualSize.toNat

end Image

structure Image where
  data : Bytes
  kind : Image.Kind
  base : Address
  sizeOfImage : UInt32
  sizeOfHeaders : UInt32
  directories : List Image.Directory
  sections : List Image.Section
deriving DecidableEq, Repr

namespace Image

def directory? (image : Image) (index : Nat) : Option Directory :=
  image.directories[index]?.filter fun directory => directory.virtualAddress ≠ 0

def exceptionDirectory? (image : Image) : Option Directory := image.directory? 3

end Image

end FunctionDiscovery
