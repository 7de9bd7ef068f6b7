import FunctionDiscovery.Image
import FunctionDiscovery.Snapshot

set_option autoImplicit false

namespace FunctionDiscovery.Image

def headerSize (image : Image) : Nat := min image.sizeOfHeaders.toNat image.data.length

def headerRegion (image : Image) (base : Address) : Region :=
  { start := base, stored := image.data.take image.headerSize }

def Section.region (s : Section) (data : Bytes) (base : Address) : Region :=
  let raw := (data.drop s.fileRange.start).take (min s.fileRange.length s.mappedSize)
  { start := base + s.virtualAddress.toUInt64
    stored := raw
    zeros := s.mappedSize - raw.length }

def layout (image : Image) (base : Address) : Snapshot :=
  image.sections.foldl
    (fun snapshot s =>
      if s.mappedSize = 0 then snapshot else snapshot.insert (s.region image.data base))
    (Snapshot.insert {} (image.headerRegion base))

end FunctionDiscovery.Image
