import FunctionDiscovery.Proofs.RuntimeTable

set_option autoImplicit false

namespace FunctionDiscovery

namespace Keyed

variable {α β : Type}

theorem map_insert (key : α → Address) (view : α → β) (viewKey : β → Address) (same : ∀ x, viewKey (view x) = key x)
    (fresh : α) (xs : List α) : (insert key fresh xs).map view = insert viewKey (view fresh) (xs.map view) := by
  induction xs with
  | nil => rfl
  | cons x rest ih =>
    rw [List.map_cons, insert, insert, same, same]
    by_cases equal : key fresh = key x
    · rw [if_pos equal, if_pos equal, List.map_cons]
    · rw [if_neg equal, if_neg equal]
      by_cases less : key fresh < key x
      · rw [if_pos less, if_pos less, List.map_cons, List.map_cons]
      · rw [if_neg less, if_neg less, List.map_cons, ih]

end Keyed

namespace Snapshot

def view (snapshot : Snapshot) : List (Address × Bytes) := snapshot.regions.map fun region => (region.start, region.bytes)

theorem view_insert (snapshot : Snapshot) (region : Region) :
    (snapshot.insert region).view = Keyed.insert Prod.fst (region.start, region.bytes) snapshot.view :=
  Keyed.map_insert Region.start (fun region => (region.start, region.bytes)) Prod.fst (fun _ => rfl) region snapshot.regions

end Snapshot

namespace Image

def FileRange.slice? (range : FileRange) (bytes : Bytes) : Option Bytes :=
  if range.start ≤ range.stop ∧ range.stop ≤ bytes.length then some ((bytes.drop range.start).take range.length)
  else none

def Section.buffer? (s : Section) (data : Bytes) : Option Bytes := do
  let room := List.replicate s.mappedSize (0 : UInt8)
  let raw ← s.fileRange.slice? data
  let copied := min raw.length room.length
  let piece ← FileRange.slice? ⟨0, copied⟩ raw
  let kept ← FileRange.slice? ⟨copied, room.length⟩ room
  return piece ++ kept

def Section.address? (s : Section) (base : Address) : Option Address :=
  if base.toNat + s.virtualAddress.toNat < UInt64.size then some (base + s.virtualAddress.toUInt64) else none

def mapSection? (data : Bytes) (base : Address) (regions : List (Address × Bytes)) (s : Section) :
    Option (List (Address × Bytes)) := do
  let bytes ← s.buffer? data
  if bytes.isEmpty then return regions
  let start ← s.address? base
  return Keyed.insert Prod.fst (start, bytes) regions

-- The layout with a check of every slice and of every sum.
def layout? (image : Image) (base : Address) : Option (List (Address × Bytes)) := do
  let header ← FileRange.slice? ⟨0, image.headerSize⟩ image.data
  image.sections.foldlM (mapSection? image.data base) [(base, header)]

def Section.Backed (s : Section) (data : Bytes) : Prop :=
  s.fileRange.start ≤ s.fileRange.stop ∧ s.fileRange.stop ≤ data.length

theorem read_section_backed (data header : Bytes) : (readSection data.length header).Backed data := by
  have start : (readSection data.length header).fileRange.start = min (word header 20 4) data.length := rfl
  have stop : (readSection data.length header).fileRange.stop =
      min (word header 20 4 + word header 16 4) data.length := rfl
  rw [Section.Backed, start, stop]
  omega

theorem FileRange.slice_front (bytes : Bytes) (length : Nat) (inside : length ≤ bytes.length) :
    FileRange.slice? ⟨0, length⟩ bytes = some (bytes.take length) := by
  rw [slice?, if_pos ⟨Nat.zero_le _, inside⟩, List.drop_zero, FileRange.length, Nat.sub_zero]

theorem FileRange.slice_zeros (room offset : Nat) (inside : offset ≤ room) :
    FileRange.slice? ⟨offset, room⟩ (List.replicate room 0) = some (List.replicate (room - offset) 0) := by
  rw [slice?, if_pos ⟨inside, Nat.le_of_eq List.length_replicate.symm⟩, FileRange.length, List.drop_replicate,
    List.take_replicate, Nat.min_self]

theorem Section.buffer_eq (s : Section) (data : Bytes) (base : Address) (backed : s.Backed data) :
    s.buffer? data = some (s.region data base).bytes := by
  have inside : s.fileRange.length ≤ (data.drop s.fileRange.start).length := by
    rw [List.length_drop, FileRange.length]
    exact Nat.sub_le_sub_right backed.2 _
  have raw : s.fileRange.slice? data = some ((data.drop s.fileRange.start).take s.fileRange.length) := if_pos backed
  have length : ((data.drop s.fileRange.start).take s.fileRange.length).length = s.fileRange.length :=
    List.length_take_of_le inside
  have stored : ((data.drop s.fileRange.start).take (min s.fileRange.length s.mappedSize)).length =
      min s.fileRange.length s.mappedSize :=
    List.length_take_of_le (Nat.le_trans (Nat.min_le_left _ _) inside)
  simp only [buffer?, raw, List.length_replicate, length, Option.bind_eq_bind, Option.bind_some]
  rw [FileRange.slice_front _ _ (length.symm ▸ Nat.min_le_left _ _), FileRange.slice_zeros _ _ (Nat.min_le_right _ _),
    List.take_take, Nat.min_eq_left (Nat.min_le_left _ _), Region.bytes, region, stored]
  rfl

theorem map_section_eq (s : Section) (data : Bytes) (base : Address) (snapshot : Snapshot) (backed : s.Backed data)
    (fits : base.toNat + s.virtualAddress.toNat < UInt64.size) :
    mapSection? data base snapshot.view s =
      some (if s.mappedSize = 0 then snapshot else snapshot.insert (s.region data base)).view := by
  have size : (s.region data base).bytes.length = s.mappedSize := by
    rw [← s.region_size data base, Region.bytes, Region.size, List.length_append, List.length_replicate]
  rw [mapSection?, s.buffer_eq data base backed, Section.address?, if_pos fits]
  by_cases empty : s.mappedSize = 0
  · have nothing : (s.region data base).bytes = [] := List.eq_nil_of_length_eq_zero (size.trans empty)
    simp [nothing, empty]
  · have something : (s.region data base).bytes ≠ [] := fun nothing => empty (by rw [← size, nothing]; rfl)
    rw [if_neg empty, Snapshot.view_insert]
    simp only [Option.bind_eq_bind, Option.bind_some, List.isEmpty_iff, something, if_false]
    rfl

theorem header_bound (image : Image) : image.headerSize ≤ image.data.length := Nat.min_le_right _ _

theorem layout_checked (image : Image) (base : Address) (backed : ∀ s ∈ image.sections, s.Backed image.data)
    (fits : ∀ s ∈ image.sections, base.toNat + s.virtualAddress.toNat < UInt64.size) :
    image.layout? base = some (image.layout base).view := by
  have header : FileRange.slice? ⟨0, image.headerSize⟩ image.data = some (image.headerRegion base).bytes := by
    rw [FileRange.slice_front _ _ image.header_bound]
    exact congrArg some (List.append_nil _).symm
  have run (sections : List Section) (listed : ∀ s ∈ sections, s ∈ image.sections) (snapshot : Snapshot) :
      sections.foldlM (mapSection? image.data base) snapshot.view =
        some (sections.foldl (fun snapshot s =>
          if s.mappedSize = 0 then snapshot else snapshot.insert (s.region image.data base)) snapshot).view := by
    induction sections generalizing snapshot with
    | nil => rfl
    | cons s rest ih =>
      have member := listed s List.mem_cons_self
      rw [List.foldlM_cons, map_section_eq s image.data base snapshot (backed s member) (fits s member), Option.bind_eq_bind,
        Option.bind_some, List.foldl_cons]
      exact ih (fun t later => listed t (List.mem_cons_of_mem _ later)) _
  rw [layout?, header]
  exact run image.sections (fun _ member => member) (Snapshot.insert {} (image.headerRegion base))

theorem header_region_size (image : Image) (base : Address) : (image.headerRegion base).size = image.headerSize := by
  rw [headerRegion, Region.size, List.length_take_of_le image.header_bound]
  rfl

def InHeaders (image : Image) (rva : Nat) : Prop := rva < image.sizeOfHeaders.toNat ∧ rva < image.data.length

def Holds (image : Image) (rva : Nat) : Prop := image.InHeaders rva ∨ ∃ s ∈ image.sections, s.Holds rva

def Separate (image : Image) : Prop :=
  image.sections.Pairwise Section.Apart ∧ ∀ s ∈ image.sections, ∀ rva, image.InHeaders rva → ¬ s.Holds rva

theorem in_headers_iff (image : Image) (rva : Nat) : image.InHeaders rva ↔ rva < image.headerSize := Nat.lt_min.symm

section Laid

variable (image : Image) (base : Address) (fits : image.Fits base) (separate : image.Separate)

include fits separate

theorem start_after_headers (s : Section) (member : s ∈ image.sections) (filled : s.mappedSize ≠ 0) :
    base.toNat + image.headerSize ≤ (s.region image.data base).start.toNat := by
  rw [laid_start image base fits s member filled]
  refine Nat.add_le_add_left (Nat.not_lt.mp fun inside => ?_) _
  exact separate.2 s member _ ((image.in_headers_iff _).mpr inside) (s.holds_start filled)

theorem headers_nearest (rva : Nat) (inside : rva < image.headerSize) (a : Address) (place : a.toNat = base.toNat + rva)
    (other : Region) (mapped : other ∈ (image.layout base).regions) (below : other.start ≤ a) :
    other = image.headerRegion base := by
  cases (mem_layout image base separate.1 fits other).mp mapped with
  | inl laid =>
    obtain ⟨s, member, filled, rfl⟩ := laid
    have after := start_after_headers image base fits separate s member filled
    have below := UInt64.le_iff_toNat_le.mp below
    omega
  | inr header => exact header.1

theorem headers_mapped (filled : 0 < image.headerSize) : image.headerRegion base ∈ (image.layout base).regions := by
  refine (mem_layout image base separate.1 fits _).mpr (.inr ⟨rfl, fun other mapped same => ?_⟩)
  obtain ⟨s, member, taken, rfl⟩ := (mem_regions image base other).mp mapped
  have after := start_after_headers image base fits separate s member taken
  rw [same] at after
  omega

theorem headers_read (rva : Nat) (within : image.InHeaders rva) (a : Address) (place : a.toNat = base.toNat + rva) :
    ∃ b, image.data[rva]? = some b ∧ (image.layout base).read a 1 = .ok [b] := by
  have inside := (image.in_headers_iff rva).mp within
  have below : base ≤ a := by
    rw [UInt64.le_iff_toNat_le]
    omega
  have offset : (image.headerRegion base).offset a = rva := by
    rw [(image.headerRegion base).offset_eq a below]
    exact Nat.sub_eq_of_eq_add' place
  have size := image.header_region_size base
  have nearest (other : Region) (mapped : other ∈ (image.layout base).regions) (before : other.start ≤ a) :
      other.start ≤ (image.headerRegion base).start :=
    headers_nearest image base fits separate rva inside a place other mapped before ▸ UInt64.le_refl _
  refine ⟨image.data.getD rva 0, ?_, ?_⟩
  · rw [List.getD_eq_getElem _ _ within.2, List.getElem?_eq_getElem within.2]
  · rw [Snapshot.read_nearest (image.layout base) _ a 1 (layout_ascending image base)
      (headers_mapped image base fits separate (by omega)) below nearest (by omega) (by omega), offset, Region.slice_eq]
    simp [headerRegion, List.getD_eq_getElem?_getD, List.getElem?_take, inside]

theorem layout_readable (a : Address) :
    (image.layout base).isReadable a = true ↔ ∃ rva, a.toNat = base.toNat + rva ∧ image.Holds rva := by
  constructor
  · intro readable
    obtain ⟨region, found, inside⟩ := ((image.layout base).readable_iff a).mp readable
    obtain ⟨mapped, below⟩ := Keyed.floor_mem Region.start a _ region found
    have offset := region.offset_eq a below
    have below := UInt64.le_iff_toNat_le.mp below
    cases (mem_layout image base separate.1 fits region).mp mapped with
    | inl laid =>
      obtain ⟨s, member, filled, rfl⟩ := laid
      have start := laid_start image base fits s member filled
      have size := s.region_size image.data base
      exact ⟨a.toNat - base.toNat, by omega, .inr ⟨s, member, (s.holds_iff _).mpr ⟨by omega, by omega⟩⟩⟩
    | inr header =>
      obtain ⟨rfl, -⟩ := header
      have start : (image.headerRegion base).start = base := rfl
      have size := image.header_region_size base
      rw [start] at below offset
      exact ⟨a.toNat - base.toNat, by omega, .inl ((image.in_headers_iff _).mpr (by omega))⟩
  · rintro ⟨rva, place, holds⟩
    cases holds with
    | inl within =>
      obtain ⟨b, -, found⟩ := headers_read image base fits separate rva within a place
      exact (image.layout base).readable_of_read a 1 [b] found
    | inr laid =>
      obtain ⟨s, member, holds⟩ := laid
      obtain ⟨first, last⟩ := (s.holds_iff rva).mp holds
      have found := layout_read image base separate.1 fits s member rva 1 first (by omega) Nat.one_pos a place
      exact (image.layout base).readable_of_read a 1 _ found

end Laid

theorem layout_faithful (name : String) (data : Bytes) (image : Image) (loaded : ofFile name (.ok data) = .ok image)
    (base : Address) :
    image.data = data ∧ image.sections = (sectionHeaders data).map (readSection data.length) ∧
    (∀ header ∈ sectionHeaders data, header.length = sectionHeaderSize) ∧
    (∀ s ∈ image.sections, s.fileRange.start ≤ s.fileRange.stop ∧ s.fileRange.stop ≤ data.length) ∧
    ((∀ s ∈ image.sections, base.toNat + s.virtualAddress.toNat < UInt64.size) →
      image.layout? base = some (image.layout base).view) ∧
    (image.Fits base → image.Separate → ∀ a : Address,
      ((image.layout base).isReadable a = true ↔ ∃ rva, a.toNat = base.toNat + rva ∧ image.Holds rva) ∧
      (∀ rva, image.InHeaders rva → a.toNat = base.toNat + rva →
        ∃ b, data[rva]? = some b ∧ (image.layout base).read a 1 = .ok [b]) ∧
      ∀ s ∈ image.sections, ∀ size, s.Takes size → ∀ k, k < size → a.toNat = base.toNat + s.virtualAddress.toNat + k →
        (image.layout base).read a 1 = .ok [s.byte data k]) := by
  obtain ⟨same, sections⟩ := accepted_sections name data image loaded
  have backed : ∀ s ∈ image.sections, s.Backed data := by
    intro s member
    rw [sections] at member
    obtain ⟨header, -, rfl⟩ := List.mem_map.mp member
    exact read_section_backed data header
  refine ⟨same, sections, accepted_headers name data image loaded, backed, layout_checked image base (same ▸ backed), ?_⟩
  intro fits separate a
  refine ⟨layout_readable image base fits separate a, fun rva within place => ?_, fun s member size takes k inside place => ?_⟩
  · rw [← same]
    exact headers_read image base fits separate rva within a place
  · obtain rfl := (s.takes_iff size).mp takes
    have found := layout_read image base separate.1 fits s member (s.virtualAddress.toNat + k) 1 (Nat.le_add_right _ _)
      (by omega) Nat.one_pos a (by omega)
    rw [found, same, Nat.add_sub_cancel_left]
    rfl

-- The last section ends with the last address, and its data ends before it. The one before has no virtual size and
-- takes the four bytes that the file has of its data.
theorem layout_faithful_small :
    let image := Discovery.smallImage
    let base : Address := 0xffffffffffffdfe0
    ofFile "small" (.ok Discovery.smallFile) = .ok image ∧ image.Fits base ∧ image.Separate ∧
      image.layout? base = some (image.layout base).view ∧
      (image.layout base).read 0xffffffffffffdfe1 1 = .ok [0x5a] ∧
      (image.layout base).read 0xfffffffffffff7e3 1 = .ok [4] ∧
      (image.layout base).isReadable 0xfffffffffffff7e4 = false ∧
      (image.layout base).read 0xffffffffffffffe2 1 = .ok [0xbe] ∧
      (image.layout base).read 0xffffffffffffffff 1 = .ok [0] ∧
      (image.layout base).isReadable 0xffffffffffffe130 = false := by
  intro image base
  have loaded : ofFile "small" (.ok Discovery.smallFile) = .ok image := by decide +kernel
  have after : ∀ s ∈ image.sections, image.sizeOfHeaders.toNat ≤ s.virtualAddress.toNat := by decide +kernel
  have separate : image.Separate := by
    refine ⟨Discovery.small_separate, fun s member rva within holds => ?_⟩
    exact absurd within.1 (Nat.not_lt.mpr (Nat.le_trans (after s member) ((s.holds_iff rva).mp holds).1))
  let unsized := readSection Discovery.smallFile.length Discovery.dataHeader
  let table := readSection Discovery.smallFile.length Discovery.tableHeader
  have unsizedMember : unsized ∈ image.sections := List.mem_map_of_mem (List.mem_cons_of_mem _ List.mem_cons_self)
  have tableMember : table ∈ image.sections :=
    List.mem_map_of_mem (List.mem_cons_of_mem _ (List.mem_cons_of_mem _ List.mem_cons_self))
  have unsizedTakes : unsized.Takes 4 := .inr (by decide +kernel)
  have tableTakes : table.Takes 0x20 := .inl (by decide +kernel)
  have bytes : unsized.byte Discovery.smallFile 3 = 4 ∧ table.byte Discovery.smallFile 2 = 0xbe ∧
      table.byte Discovery.smallFile 0x1f = 0 := by decide +kernel
  obtain ⟨-, -, -, -, checked, faithful⟩ := layout_faithful "small" Discovery.smallFile image loaded base
  have faithful := faithful Discovery.small_fits separate
  refine ⟨loaded, Discovery.small_fits, separate, checked (by decide +kernel), ?_, ?_, by decide +kernel, ?_, ?_,
    by decide +kernel⟩
  · obtain ⟨b, stored, found⟩ := (faithful 0xffffffffffffdfe1).2.1 1 ⟨by decide, by decide +kernel⟩ (by decide +kernel)
    obtain rfl : 0x5a = b := Option.some.inj stored
    exact found
  · rw [(faithful 0xfffffffffffff7e3).2.2 unsized unsizedMember 4 unsizedTakes 3 (by decide) (by decide +kernel), bytes.1]
  · rw [(faithful 0xffffffffffffffe2).2.2 table tableMember 0x20 tableTakes 2 (by decide) (by decide +kernel), bytes.2.1]
  · rw [(faithful 0xffffffffffffffff).2.2 table tableMember 0x20 tableTakes 0x1f (by decide) (by decide +kernel), bytes.2.2]

end Image

end FunctionDiscovery
