import FunctionDiscovery.Image.Layout
import FunctionDiscovery.Proofs.MappedRegions
import Mathlib.Data.List.Range

set_option autoImplicit false

namespace FunctionDiscovery

namespace Image

-- The virtual size says how much room a section takes; where it is zero, the length of the data does.
def Section.Takes (s : Section) (size : Nat) : Prop :=
  s.virtualSize.toNat ≠ 0 ∧ size = s.virtualSize.toNat ∨
    s.virtualSize.toNat = 0 ∧ size = s.fileRange.stop - s.fileRange.start

def Section.Holds (s : Section) (rva : Nat) : Prop :=
  ∃ size, s.Takes size ∧ s.virtualAddress.toNat ≤ rva ∧ rva < s.virtualAddress.toNat + size

def Section.byte (s : Section) (data : Bytes) (offset : Nat) : UInt8 :=
  if offset < s.fileRange.length then data.getD (s.fileRange.start + offset) 0 else 0

def Section.Apart (one other : Section) : Prop := ∀ rva, ¬ (one.Holds rva ∧ other.Holds rva)

instance : Std.Symm Section.Apart := ⟨fun _ _ apart rva shared => apart rva shared.symm⟩

def Fits (image : Image) (base : Address) : Prop :=
  ∀ s ∈ image.sections, ∀ size, s.Takes size → base.toNat + s.virtualAddress.toNat + size ≤ UInt64.size

theorem Section.takes_iff (s : Section) (size : Nat) : s.Takes size ↔ size = s.mappedSize := by
  have zero : s.virtualSize.toNat = 0 ↔ s.virtualSize = 0 := @UInt32.toNat_inj s.virtualSize 0
  rw [Takes, mappedSize, FileRange.length, ne_eq, zero]
  by_cases empty : s.virtualSize = 0
  · simp [empty]
  · simp [empty]

theorem Section.holds_iff (s : Section) (rva : Nat) :
    s.Holds rva ↔ s.virtualAddress.toNat ≤ rva ∧ rva < s.virtualAddress.toNat + s.mappedSize := by
  simp only [Holds, takes_iff, exists_eq_left]

theorem Section.holds_start (s : Section) (filled : s.mappedSize ≠ 0) : s.Holds s.virtualAddress.toNat :=
  (s.holds_iff _).mpr ⟨Nat.le_refl _, Nat.lt_add_of_pos_right (Nat.pos_of_ne_zero filled)⟩

theorem Section.apart_of_le (one other : Section)
    (below : one.virtualAddress.toNat + one.mappedSize ≤ other.virtualAddress.toNat) : one.Apart other := by
  rintro rva ⟨inOne, inOther⟩
  have last := ((one.holds_iff rva).mp inOne).2
  have first := ((other.holds_iff rva).mp inOther).1
  omega

theorem fits_iff (image : Image) (base : Address) :
    image.Fits base ↔ ∀ s ∈ image.sections, base.toNat + s.virtualAddress.toNat + s.mappedSize ≤ UInt64.size := by
  simp only [Fits, Section.takes_iff, forall_eq]

theorem Section.region_size (s : Section) (data : Bytes) (base : Address) : (s.region data base).size = s.mappedSize := by
  simp only [region, Region.size, List.length_take, List.length_drop]
  omega

theorem Section.region_byte (s : Section) (data : Bytes) (base : Address) (offset : Nat) (inside : offset < s.mappedSize) :
    (s.region data base).stored.getD offset 0 = s.byte data offset := by
  rw [region, byte, Bytes.piece_get]
  by_cases stored : offset < s.fileRange.length
  · rw [if_pos stored, if_pos (Nat.lt_min.mpr ⟨stored, inside⟩)]
  · rw [if_neg stored, if_neg fun both => stored (Nat.lt_min.mp both).1]

theorem Section.region_start (s : Section) (data : Bytes) (base : Address) (filled : s.mappedSize ≠ 0)
    (fits : base.toNat + s.virtualAddress.toNat + s.mappedSize ≤ UInt64.size) :
    (s.region data base).start.toNat = base.toNat + s.virtualAddress.toNat := by
  simp only [region, UInt64.toNat_add, UInt32.toNat_toUInt64]
  apply Nat.mod_eq_of_lt
  simp only [UInt64.size] at fits
  omega

def regions (image : Image) (base : Address) : List Region :=
  (image.sections.filter fun s => s.mappedSize ≠ 0).map fun s => s.region image.data base

theorem layout_eq (image : Image) (base : Address) :
    image.layout base = (image.regions base).foldl Snapshot.insert (Snapshot.insert {} (image.headerRegion base)) := by
  rw [layout, regions, List.foldl_map, List.foldl_filter]
  congr 1
  funext snapshot s
  by_cases empty : s.mappedSize = 0 <;> simp [empty]

theorem mem_regions (image : Image) (base : Address) (region : Region) :
    region ∈ image.regions base ↔
      ∃ s ∈ image.sections, s.mappedSize ≠ 0 ∧ s.region image.data base = region := by
  simp [regions, and_assoc]

theorem layout_ascending (image : Image) (base : Address) :
    Keyed.Ascending Region.start (image.layout base).regions := by
  rw [layout_eq]
  exact Snapshot.mapped_ascending _ _ (Snapshot.insert_ascending {} _ .nil)

section Laid

variable (image : Image) (base : Address) (separate : image.sections.Pairwise Section.Apart) (fits : image.Fits base)

include fits in
theorem laid_start (s : Section) (member : s ∈ image.sections) (filled : s.mappedSize ≠ 0) :
    (s.region image.data base).start.toNat = base.toNat + s.virtualAddress.toNat :=
  s.region_start image.data base filled ((image.fits_iff base).mp fits s member)

include separate fits

theorem starts_differ : (image.regions base).Pairwise fun one other => one.start ≠ other.start := by
  rw [regions, List.pairwise_map]
  refine (separate.filter _).imp_of_mem fun {one other} oneMember otherMember apart same => ?_
  obtain ⟨oneListed, oneFilled⟩ := List.mem_filter.mp oneMember
  obtain ⟨otherListed, otherFilled⟩ := List.mem_filter.mp otherMember
  have oneFilled : one.mappedSize ≠ 0 := of_decide_eq_true oneFilled
  have otherFilled : other.mappedSize ≠ 0 := of_decide_eq_true otherFilled
  have starts := congrArg UInt64.toNat same
  rw [laid_start image base fits one oneListed oneFilled, laid_start image base fits other otherListed otherFilled] at starts
  have place : one.virtualAddress.toNat = other.virtualAddress.toNat := by omega
  exact apart one.virtualAddress.toNat ⟨one.holds_start oneFilled, place ▸ other.holds_start otherFilled⟩

theorem mem_layout (region : Region) :
    region ∈ (image.layout base).regions ↔
      (∃ s ∈ image.sections, s.mappedSize ≠ 0 ∧ s.region image.data base = region) ∨
        region = image.headerRegion base ∧ ∀ other ∈ image.regions base, other.start ≠ base := by
  rw [layout_eq, Snapshot.mem_mapped _ _ (Snapshot.insert_ascending {} _ .nil),
    Snapshot.standing_of_different _ _ (starts_differ image base separate fits), mem_regions]
  refine or_congr_right ?_
  change region ∈ [image.headerRegion base] ∧ _ ↔ _
  rw [List.mem_singleton]
  refine and_congr_right fun header => ?_
  rw [header]
  rfl

-- A region that starts after the section, but not after an address of it, would start inside it.
theorem section_nearest (s : Section) (member : s ∈ image.sections) (rva : Nat) (holds : s.Holds rva) (a : Address)
    (place : a.toNat = base.toNat + rva) (other : Region) (mapped : other ∈ (image.layout base).regions)
    (below : other.start ≤ a) : other.start ≤ (s.region image.data base).start := by
  obtain ⟨first, last⟩ := (s.holds_iff rva).mp holds
  have filled : s.mappedSize ≠ 0 := by omega
  have start := laid_start image base fits s member filled
  have below := UInt64.le_iff_toNat_le.mp below
  rw [UInt64.le_iff_toNat_le, start]
  rcases (mem_layout image base separate fits other).mp mapped with ⟨t, tMember, tFilled, rfl⟩ | ⟨rfl, -⟩
  · have tStart := laid_start image base fits t tMember tFilled
    rw [tStart] at below ⊢
    by_cases after : s.virtualAddress.toNat < t.virtualAddress.toNat
    · have different : s ≠ t := fun same => Nat.lt_irrefl _ (same ▸ after)
      have apart := separate.forall member tMember different
      have inside := (s.holds_iff t.virtualAddress.toNat).mpr ⟨by omega, by omega⟩
      exact absurd ⟨inside, t.holds_start tFilled⟩ (apart t.virtualAddress.toNat)
    · omega
  · exact Nat.le_add_right _ _

theorem layout_read (s : Section) (member : s ∈ image.sections) (rva length : Nat) (first : s.virtualAddress.toNat ≤ rva)
    (room : rva + length ≤ s.virtualAddress.toNat + s.mappedSize) (filled : 0 < length) (a : Address)
    (place : a.toNat = base.toNat + rva) :
    (image.layout base).read a length =
      .ok ((List.range length).map fun k => s.byte image.data (rva - s.virtualAddress.toNat + k)) := by
  have holds : s.Holds rva := (s.holds_iff rva).mpr ⟨first, by omega⟩
  have taken : s.mappedSize ≠ 0 := by omega
  have start := laid_start image base fits s member taken
  have size := s.region_size image.data base
  have below : (s.region image.data base).start ≤ a := by
    rw [UInt64.le_iff_toNat_le]
    omega
  have offset : (s.region image.data base).offset a = rva - s.virtualAddress.toNat := by
    rw [Region.offset_eq _ a below]
    omega
  have mapped := (mem_layout image base separate fits _).mpr (.inl ⟨s, member, taken, rfl⟩)
  rw [Snapshot.read_nearest (image.layout base) _ a length (layout_ascending image base) mapped below
    (section_nearest image base separate fits s member rva holds a place) (by omega) (by omega), offset, Region.slice_eq]
  refine congrArg Except.ok (List.map_congr_left fun k inside => ?_)
  have bound := List.mem_range.mp inside
  exact s.region_byte image.data base _ (by omega)

end Laid

end Image

end FunctionDiscovery
