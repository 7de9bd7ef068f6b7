import FunctionDiscovery.Discovery
import FunctionDiscovery.Proofs.ImageFile
import FunctionDiscovery.Proofs.ImageMemory
import FunctionDiscovery.Proofs.StoredRecords

set_option autoImplicit false

namespace FunctionDiscovery

namespace Image

def rawByte (data header : Bytes) (offset : Nat) : UInt8 :=
  if offset < word header 16 4 then data.getD (word header 20 4 + offset) 0 else 0

theorem section_byte_raw (data header : Bytes) (offset : Nat) :
    (readSection data.length header).byte data offset = rawByte data header offset := by
  have start : (readSection data.length header).fileRange.start = min (word header 20 4) data.length := rfl
  have length : (readSection data.length header).fileRange.length =
      min (word header 20 4 + word header 16 4) data.length - min (word header 20 4) data.length := rfl
  rw [Section.byte, rawByte, start, length]
  by_cases listed : offset < word header 16 4
  · rw [if_pos listed]
    by_cases present : word header 20 4 + offset < data.length
    · rw [if_pos (by omega), Nat.min_eq_left (by omega)]
    · rw [if_neg (by omega), List.getD_eq_default _ _ (Nat.not_lt.mp present)]
  · rw [if_neg listed, if_neg (by omega)]

end Image

namespace ModuleMap

theorem single_base (m : Module) (a : Address) (inside : m.contains a = true) : (insert {} m).base? a = some m.base := by
  have below : m.base ≤ a := by
    simp only [Module.contains, Bool.and_eq_true, decide_eq_true_iff] at inside
    exact inside.1
  simp [base?, get?, insert, Keyed.insertBefore, Keyed.floor?, below, inside]

theorem single_path (m : Module) : (insert {} m).path? m.base = some m.path := by
  simp [path?, insert, Keyed.insertBefore]

end ModuleMap

namespace Discovery

variable {σ : Type}

theorem prepare_records (files : Files) (resolver : Resolver) (memory : Memory) (watch : Watch σ) (bounds : AddressRange)
    (workers : Nat) (width : PointerWidth) (state : σ) (base address : Address) (size : Nat) (bytes : Bytes)
    (owner : resolver.base? bounds.start = some base) (located : recordsAt? files resolver base = some (address, size))
    (copied : memory.read address size = .ok bytes) :
    (prepare files resolver memory watch bounds workers width state).1.records = RuntimeFunction.decodeAll bytes := by
  simp only [prepare, owner, Option.bind_some, located, copied]

theorem records_located (files : Files) (resolver : Resolver) (base : Address) (path : String) (image : Image)
    (directory : Image.Directory) (known : resolver.path? base = some path)
    (loaded : Image.ofFile path (files path) = .ok image) (present : image.exceptionDirectory? = some directory)
    (filled : directory.size ≠ 0) (fits : base.toNat + directory.virtualAddress.toNat < UInt64.size) :
    recordsAt? files resolver base = some (base + directory.virtualAddress.toUInt64, directory.size.toNat) := by
  simp [recordsAt?, known, loaded, present, filled, fits, Except.toOption]

theorem records_from_file (files : Files) (path : String) (data : Bytes) (image : Image) (base : Address)
    (opened : files path = .ok data) (loaded : Image.ofFile path (.ok data) = .ok image) (fits : image.Fits base)
    (separate : image.sections.Pairwise Image.Section.Apart) (directory : Image.Directory)
    (present : image.exceptionDirectory? = some directory) (filled : directory.size ≠ 0) (header : Bytes)
    (listed : header ∈ Image.sectionHeaders data) (watch : Watch σ) (bounds : AddressRange) (workers : Nat)
    (width : PointerWidth) (state : σ) :
    let s := Image.readSection data.length header
    let m : Module := ⟨base, image.sizeOfImage.toUInt64, path⟩
    s.virtualAddress.toNat ≤ directory.virtualAddress.toNat →
    (∃ size, s.Takes size ∧
      directory.virtualAddress.toNat + directory.size.toNat ≤ s.virtualAddress.toNat + size) →
    m.contains bounds.start = true →
    (prepare files (ModuleMap.insert {} m).resolver (image.layout base).memory watch bounds workers width state).1.records =
      RuntimeFunction.stored directory.size.toNat fun k =>
        Image.rawByte data header (directory.virtualAddress.toNat - s.virtualAddress.toNat + k) := by
  intro s m first reaches inside
  obtain ⟨size, takes, room⟩ := reaches
  obtain rfl := (s.takes_iff size).mp takes
  obtain ⟨same, sections⟩ := Image.accepted_sections path data image loaded
  have member : s ∈ image.sections := sections ▸ List.mem_map_of_mem listed
  have positive : 0 < directory.size.toNat := by
    rw [Nat.pos_iff_ne_zero]
    exact fun zero => filled (UInt32.toNat_inj.mp zero)
  have bound := (image.fits_iff base).mp fits s member
  have reached : base.toNat + directory.virtualAddress.toNat < UInt64.size := by omega
  have place : (base + directory.virtualAddress.toUInt64).toNat = base.toNat + directory.virtualAddress.toNat := by
    rw [UInt64.toNat_add, UInt32.toNat_toUInt64]
    exact Nat.mod_eq_of_lt reached
  have copied := image.layout_read base separate fits s member _ _ first room positive _ place
  have located := records_located files (ModuleMap.insert {} m).resolver base path image directory
    (ModuleMap.single_path m) (opened ▸ loaded) present filled reached
  rw [prepare_records files _ _ watch bounds workers width state base _ _ _ (ModuleMap.single_base m _ inside) located copied,
    RuntimeFunction.decode_all_stored, List.length_map, List.length_range]
  -- Both tables have the same length, so they are compared byte by byte.
  apply RuntimeFunction.stored_congr
  intro k below
  rw [List.getD_eq_getElem _ _ (by simpa using below), List.getElem_map, List.getElem_range, same]
  exact Image.section_byte_raw data header _

def smallHeaders : Bytes :=
  [0x4d, 0x5a] ++ List.replicate 58 0 ++ [0x40, 0, 0, 0] ++
  [0x50, 0x45, 0, 0, 0x4c, 1, 3, 0] ++ List.replicate 12 0 ++ [0x80, 0, 0, 0] ++
  [0x0b, 1] ++ List.replicate 54 0 ++ [0, 0x30, 0, 0, 0x50, 1, 0, 0] ++ List.replicate 28 0 ++ [4, 0, 0, 0] ++
  List.replicate 24 0 ++ [4, 0x20, 0, 0, 0x1a, 0, 0, 0]

def codeHeader : Bytes := List.replicate 8 0 ++ [0, 8, 0, 0, 0, 0x10, 0, 0] ++ List.replicate 24 0

def dataHeader : Bytes :=
  List.replicate 8 0 ++ [0, 0, 0, 0, 0, 0x18, 0, 0, 0x10, 0, 0, 0, 0x64, 1, 0, 0] ++ List.replicate 16 0

def tableHeader : Bytes :=
  List.replicate 8 0 ++ [0x20, 0, 0, 0, 0, 0x20, 0, 0, 0x14, 0, 0, 0, 0x50, 1, 0, 0] ++ List.replicate 16 0

-- The table starts after the first four bytes of its section. The raw data ends inside the second record.
def smallFile : Bytes :=
  smallHeaders ++ codeHeader ++ dataHeader ++ tableHeader ++
    [0xde, 0xad, 0xbe, 0xef, 0, 0x10, 0, 0, 0x20, 0x10, 0, 0, 8, 0x20, 0, 0, 0x40, 0x10, 0, 0] ++ [1, 2, 3, 4]

def smallImage : Image where
  data := smallFile
  kind := .pe32
  base := 0
  sizeOfImage := 0x3000
  sizeOfHeaders := 0x150
  directories := [⟨0, 0⟩, ⟨0, 0⟩, ⟨0, 0⟩, ⟨0x2004, 0x1a⟩]
  sections := [codeHeader, dataHeader, tableHeader].map (Image.readSection smallFile.length)

theorem small_separate : smallImage.sections.Pairwise Image.Section.Apart := by
  have ordered : smallImage.sections.Pairwise fun one other =>
      one.virtualAddress.toNat + one.mappedSize ≤ other.virtualAddress.toNat := by decide +kernel
  exact ordered.imp fun {one other} => one.apart_of_le other

theorem small_fits : smallImage.Fits 0xffffffffffffdfe0 := by
  rw [Image.fits_iff]
  decide +kernel

theorem records_from_file_small :
    let base : Address := 0xffffffffffffdfe0
    let files : Files := fun _ => .ok smallFile
    let m : Module := ⟨base, smallImage.sizeOfImage.toUInt64, "small"⟩
    Image.ofFile "small" (files "small") = .ok smallImage ∧ smallImage.Fits base ∧
      smallImage.sections.Pairwise Image.Section.Apart ∧ tableHeader ∈ Image.sectionHeaders smallFile ∧
      (prepare files (ModuleMap.insert {} m).resolver (smallImage.layout base).memory Watch.never
        ⟨0xffffffffffffeff0, 0xfffffffffffff000⟩ 1 .bits32 ()).1.records =
        [⟨0x1000, 0x1020, 0x2008⟩, ⟨0x1040, 0, 0⟩] := by
  intro base files m
  have loaded : Image.ofFile "small" (.ok smallFile) = .ok smallImage := by decide +kernel
  have listed : tableHeader ∈ Image.sectionHeaders smallFile := by decide
  have takes : (Image.readSection smallFile.length tableHeader).Takes 0x20 := .inl (by decide)
  have records := records_from_file files "small" smallFile smallImage base rfl loaded small_fits small_separate
    ⟨0x2004, 0x1a⟩ rfl (by decide) tableHeader listed Watch.never ⟨0xffffffffffffeff0, 0xfffffffffffff000⟩ 1 .bits32 ()
    (by decide) ⟨0x20, takes, by decide⟩ (by decide)
  have decoded : RuntimeFunction.stored 0x1a (fun k => Image.rawByte smallFile tableHeader (4 + k)) =
      [⟨0x1000, 0x1020, 0x2008⟩, ⟨0x1040, 0, 0⟩] := by decide
  refine ⟨loaded, small_fits, small_separate, listed, ?_⟩
  rw [records]
  exact decoded

end Discovery

end FunctionDiscovery
