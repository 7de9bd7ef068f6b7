import FunctionDiscovery.Snapshot
import FunctionDiscovery.Proofs.KeyedOrder
import Mathlib.Data.List.GetD

set_option autoImplicit false

namespace FunctionDiscovery

theorem Bytes.piece_get (bytes : Bytes) (offset length k : Nat) :
    ((bytes.drop offset).take length).getD k 0 = if k < length then bytes.getD (offset + k) 0 else 0 := by
  simp only [List.getD_eq_getElem?_getD, List.getElem?_take, List.getElem?_drop]
  split <;> rfl

theorem Bytes.padded_get (bytes : Bytes) (zeros k : Nat) :
    (bytes ++ List.replicate zeros 0).getD k 0 = bytes.getD k 0 := by
  by_cases inside : k < bytes.length
  · exact List.getD_append _ _ _ _ inside
  · have beyond : bytes.length ≤ k := Nat.not_lt.mp inside
    rw [List.getD_append_right _ _ _ _ beyond, List.getD_eq_default _ _ beyond,
      List.getD_eq_getElem?_getD, List.getElem?_getD_replicate_default_eq]

namespace Region

-- The addresses of the bytes of a region. One that reaches past the last address has bytes without an address.
def Holds (region : Region) (a : Address) : Prop :=
  region.start.toNat ≤ a.toNat ∧ a.toNat < region.start.toNat + region.bytes.length

instance (region : Region) (a : Address) : Decidable (region.Holds a) :=
  inferInstanceAs (Decidable (_ ∧ _))

theorem bytes_length (region : Region) : region.bytes.length = region.size := by
  rw [bytes, size, List.length_append, List.length_replicate]

theorem offset_eq (region : Region) (a : Address) (below : region.start ≤ a) :
    region.offset a = a.toNat - region.start.toNat :=
  UInt64.toNat_sub_of_le a region.start below

theorem slice_length (region : Region) (offset length : Nat) : (region.slice offset length).length = length := by
  simp only [slice, List.length_append, List.length_take, List.length_replicate]
  omega

theorem slice_eq (region : Region) (offset length : Nat) :
    region.slice offset length = (List.range length).map fun k => region.stored.getD (offset + k) 0 := by
  have size := region.slice_length offset length
  apply List.ext_getElem
  · rw [size, List.length_map, List.length_range]
  · intro k inSlice inRange
    rw [List.getElem_map, List.getElem_range, ← List.getD_eq_getElem _ 0 inSlice, slice, Bytes.padded_get,
      Bytes.piece_get, if_pos (size ▸ inSlice)]

theorem slice_bytes (region : Region) (offset length : Nat) (room : offset + length ≤ region.bytes.length) :
    region.slice offset length = (region.bytes.drop offset).take length := by
  have size := region.slice_length offset length
  apply List.ext_getElem
  · rw [size, List.length_take, List.length_drop]
    omega
  · intro k inSlice inPiece
    rw [← List.getD_eq_getElem _ 0 inSlice, ← List.getD_eq_getElem _ 0 inPiece, slice, Bytes.padded_get, Bytes.piece_get,
      Bytes.piece_get, bytes, Bytes.padded_get]

end Region

namespace Snapshot

theorem insert_ascending (snapshot : Snapshot) (region : Region)
    (ascending : Keyed.Ascending Region.start snapshot.regions) :
    Keyed.Ascending Region.start (snapshot.insert region).regions :=
  Keyed.insert_ascending Region.start region snapshot.regions ascending

theorem mapped_ascending (regions : List Region) (snapshot : Snapshot)
    (ascending : Keyed.Ascending Region.start snapshot.regions) :
    Keyed.Ascending Region.start (regions.foldl insert snapshot).regions := by
  induction regions generalizing snapshot with
  | nil => exact ascending
  | cons region rest ih => exact ih (snapshot.insert region) (insert_ascending snapshot region ascending)

def Standing (calls : List Region) (region : Region) : Prop :=
  ∃ before after, calls = before ++ region :: after ∧ ∀ later ∈ after, later.start ≠ region.start

theorem standing_cons (fresh : Region) (rest : List Region) (region : Region) :
    Standing (fresh :: rest) region ↔
      region = fresh ∧ (∀ later ∈ rest, later.start ≠ region.start) ∨ Standing rest region := by
  constructor
  · rintro ⟨before, after, same, lasting⟩
    cases before with
    | nil =>
      obtain ⟨rfl, rfl⟩ := List.cons.inj same
      exact .inl ⟨rfl, lasting⟩
    | cons head before => exact .inr ⟨before, after, (List.cons.inj same).2, lasting⟩
  · rintro (⟨rfl, lasting⟩ | ⟨before, after, rfl, lasting⟩)
    · exact ⟨[], rest, rfl, lasting⟩
    · exact ⟨fresh :: before, after, rfl, lasting⟩

theorem standing_mem (calls : List Region) (region : Region) (standing : Standing calls region) : region ∈ calls := by
  obtain ⟨before, after, rfl, -⟩ := standing
  exact List.mem_append_right before List.mem_cons_self

theorem standing_of_different (calls : List Region) (region : Region)
    (different : calls.Pairwise fun one other => one.start ≠ other.start) : Standing calls region ↔ region ∈ calls := by
  refine ⟨standing_mem calls region, fun member => ?_⟩
  obtain ⟨before, after, rfl⟩ := List.append_of_mem member
  have apart := (List.pairwise_cons.mp (List.pairwise_append.mp different).2.1).1
  exact ⟨before, after, rfl, fun later present => (apart later present).symm⟩

theorem mem_mapped (calls : List Region) (snapshot : Snapshot)
    (ascending : Keyed.Ascending Region.start snapshot.regions) (region : Region) :
    region ∈ (calls.foldl insert snapshot).regions ↔
      Standing calls region ∨ region ∈ snapshot.regions ∧ ∀ call ∈ calls, call.start ≠ region.start := by
  induction calls generalizing snapshot with
  | nil => simp [Standing]
  | cons fresh rest ih =>
    rw [List.foldl_cons, ih (snapshot.insert fresh) (insert_ascending snapshot fresh ascending), insert,
      Keyed.mem_insert Region.start fresh region snapshot.regions ascending, standing_cons, List.forall_mem_cons]
    grind

def mapped (calls : List Region) : Snapshot := calls.foldl insert {}

theorem ascending_mapped (calls : List Region) : Keyed.Ascending Region.start (mapped calls).regions :=
  mapped_ascending calls {} .nil

theorem standing_iff (calls : List Region) (region : Region) :
    region ∈ (mapped calls).regions ↔ Standing calls region := by
  rw [mapped, mem_mapped calls {} .nil region]
  simp

theorem region_found (snapshot : Snapshot) (a : Address) (region : Region) :
    snapshot.region? a = some region ↔
      Keyed.floor? Region.start a snapshot.regions = some region ∧ region.offset a < region.size := by
  rw [region?]
  cases Keyed.floor? Region.start a snapshot.regions with
  | none => simp
  | some nearest => by_cases inside : nearest.offset a < nearest.size <;> grind

theorem readable_iff (snapshot : Snapshot) (a : Address) :
    snapshot.isReadable a = true ↔
      ∃ region, Keyed.floor? Region.start a snapshot.regions = some region ∧ region.offset a < region.size := by
  rw [isReadable, Option.isSome_iff_exists]
  exact exists_congr fun region => region_found snapshot a region

theorem region_holds (snapshot : Snapshot) (a : Address) (region : Region) (found : snapshot.region? a = some region) :
    region ∈ snapshot.regions ∧ region.Holds a := by
  obtain ⟨nearest, inside⟩ := (region_found snapshot a region).mp found
  obtain ⟨member, below⟩ := Keyed.floor_mem Region.start a snapshot.regions region nearest
  rw [region.offset_eq a below, ← region.bytes_length] at inside
  have below := UInt64.le_iff_toNat_le.mp below
  exact ⟨member, below, by omega⟩

theorem read_holding (snapshot : Snapshot) (a : Address) (length : Nat) (region : Region)
    (found : snapshot.region? a = some region) :
    snapshot.read a length =
      if a.toNat - region.start.toNat + length ≤ region.bytes.length then
        .ok ((region.bytes.drop (a.toNat - region.start.toNat)).take length)
      else .error (.truncated a length (region.bytes.length - (a.toNat - region.start.toNat))) := by
  obtain ⟨-, first, last⟩ := region_holds snapshot a region found
  have place := region.offset_eq a (UInt64.le_iff_toNat_le.mpr first)
  have size := region.bytes_length
  rw [read, found]
  dsimp only
  rw [place, ← size]
  by_cases room : a.toNat - region.start.toNat + length ≤ region.bytes.length
  · rw [if_pos room, if_neg (by omega), region.slice_bytes _ _ room]
  · rw [if_neg room, if_pos (by omega)]

theorem readable_of_read (snapshot : Snapshot) (a : Address) (length : Nat) (bytes : Bytes)
    (found : snapshot.read a length = .ok bytes) : snapshot.isReadable a = true := by
  rw [read] at found
  rw [isReadable]
  cases holding : snapshot.region? a with
  | none => simp [holding] at found
  | some region => rfl

theorem read_nearest (snapshot : Snapshot) (region : Region) (a : Address) (length : Nat)
    (ascending : Keyed.Ascending Region.start snapshot.regions) (member : region ∈ snapshot.regions)
    (below : region.start ≤ a) (nearest : ∀ other ∈ snapshot.regions, other.start ≤ a → other.start ≤ region.start)
    (inside : region.offset a < region.size) (room : region.offset a + length ≤ region.size) :
    snapshot.read a length = .ok (region.slice (region.offset a) length) := by
  have found := Keyed.floor_highest Region.start a snapshot.regions region ascending member below nearest
  have enough : ¬ region.size - region.offset a < length := by omega
  rw [read, region?, found]
  simp only [if_pos inside, if_neg enough]

section Scan

variable (calls : List Region)
  (apart : ∀ one other, Standing calls one → Standing calls other → one ≠ other → ¬ one.Holds other.start)

include apart

-- A region that starts after this one, but not after the address, would start among its bytes.
theorem region_iff (a : Address) (region : Region) :
    (mapped calls).region? a = some region ↔ Standing calls region ∧ region.Holds a := by
  constructor
  · intro found
    obtain ⟨member, holds⟩ := region_holds _ a region found
    exact ⟨(standing_iff calls region).mp member, holds⟩
  · rintro ⟨standing, holds⟩
    have below : region.start ≤ a := UInt64.le_iff_toNat_le.mpr holds.1
    have nearest (other : Region) (member : other ∈ (mapped calls).regions) (before : other.start ≤ a) :
        other.start ≤ region.start := by
      by_contra after
      have different : region ≠ other := fun same => after (same ▸ UInt64.le_refl _)
      rw [UInt64.le_iff_toNat_le] at before after
      refine apart region other standing ((standing_iff calls other).mp member) different ⟨by omega, ?_⟩
      exact Nat.lt_of_le_of_lt before holds.2
    refine (region_found _ a region).mpr ⟨?_, ?_⟩
    · exact Keyed.floor_highest Region.start a _ region (ascending_mapped calls) ((standing_iff calls region).mpr standing)
        below nearest
    · obtain ⟨first, last⟩ := holds
      rw [region.offset_eq a below, ← region.bytes_length]
      omega

theorem region_none_iff (a : Address) :
    (mapped calls).region? a = none ↔ ∀ region, Standing calls region → ¬ region.Holds a := by
  rw [Option.eq_none_iff_forall_ne_some]
  refine forall_congr' fun region => ?_
  rw [ne_eq, region_iff calls apart a region, not_and]

theorem read_ok_iff (a : Address) (length : Nat) (bytes : Bytes) :
    (mapped calls).read a length = .ok bytes ↔
      ∃ region, Standing calls region ∧ region.Holds a ∧ a.toNat - region.start.toNat + length ≤ region.bytes.length ∧
        bytes = (region.bytes.drop (a.toNat - region.start.toNat)).take length := by
  constructor
  · intro done
    cases found : (mapped calls).region? a with
    | none => simp [read, found] at done
    | some region =>
      obtain ⟨standing, holds⟩ := (region_iff calls apart a region).mp found
      rw [read_holding _ a length region found] at done
      split at done
      · next room => exact ⟨region, standing, holds, room, (Except.ok.inj done).symm⟩
      · contradiction
  · rintro ⟨region, standing, holds, room, rfl⟩
    have found := (region_iff calls apart a region).mpr ⟨standing, holds⟩
    rw [read_holding _ a length region found, if_pos room]

theorem read_truncated_iff (a : Address) (length : Nat) (place : Address) (wanted got : Nat) :
    (mapped calls).read a length = .error (.truncated place wanted got) ↔
      place = a ∧ wanted = length ∧ ∃ region, Standing calls region ∧ region.Holds a ∧
        got = region.bytes.length - (a.toNat - region.start.toNat) ∧ got < length := by
  constructor
  · intro failed
    cases found : (mapped calls).region? a with
    | none => simp [read, found] at failed
    | some region =>
      obtain ⟨standing, holds⟩ := (region_iff calls apart a region).mp found
      rw [read_holding _ a length region found] at failed
      split at failed
      · contradiction
      · next short =>
        obtain ⟨rfl, rfl, rfl⟩ := Memory.Fault.truncated.inj (Except.error.inj failed)
        have last := holds.2
        exact ⟨rfl, rfl, region, standing, holds, rfl, by omega⟩
  · rintro ⟨rfl, rfl, region, standing, holds, rfl, short⟩
    have found := (region_iff calls apart place region).mpr ⟨standing, holds⟩
    rw [read_holding _ place wanted region found, if_neg (by omega)]

theorem read_unmapped_iff (a : Address) (length : Nat) (place : Address) (wanted : Nat) :
    (mapped calls).read a length = .error (.unmapped place wanted) ↔
      place = a ∧ wanted = length ∧ ∀ region, Standing calls region → ¬ region.Holds a := by
  rw [← region_none_iff calls apart a]
  cases found : (mapped calls).region? a with
  | none =>
    rw [read, found]
    simp only [Except.error.injEq, Memory.Fault.unmapped.injEq, and_true]
    exact and_congr eq_comm eq_comm
  | some region =>
    rw [read_holding _ a length region found]
    split <;> simp

theorem readable_holds (a : Address) :
    (mapped calls).isReadable a = true ↔ ∃ region, Standing calls region ∧ region.Holds a := by
  rw [isReadable, Option.isSome_iff_exists]
  exact exists_congr fun region => region_iff calls apart a region

theorem read_split (a : Address) (length : Nat) (bytes : Bytes) (done : (mapped calls).read a length = .ok bytes) (k : Nat)
    (less : k < length) (fits : a.toNat + k < UInt64.size) :
    ∃ front back, (mapped calls).read a k = .ok front ∧
      (mapped calls).read (a + UInt64.ofNat k) (length - k) = .ok back ∧ front ++ back = bytes := by
  obtain ⟨region, standing, ⟨first, last⟩, room, rfl⟩ := (read_ok_iff calls apart a length bytes).mp done
  have place : (a + UInt64.ofNat k).toNat = a.toNat + k := by
    rw [UInt64.toNat_add, UInt64.toNat_ofNat_of_lt' (by omega)]
    exact Nat.mod_eq_of_lt fits
  refine ⟨_, _, (read_ok_iff calls apart a k _).mpr ⟨region, standing, ⟨first, last⟩, by omega, rfl⟩,
    (read_ok_iff calls apart _ (length - k) _).mpr ⟨region, standing, ⟨by omega, by omega⟩, by omega, rfl⟩, ?_⟩
  have further : a.toNat + k - region.start.toNat = a.toNat - region.start.toNat + k := by omega
  have whole : length = k + (length - k) := by omega
  rw [place, further, ← List.drop_drop, ← List.take_add, ← whole]

end Scan

theorem reads_scan_regions (calls : List Region)
    (apart : ∀ one other, Standing calls one → Standing calls other → one ≠ other → ¬ one.Holds other.start)
    (a : Address) (length : Nat) :
    let snapshot := mapped calls
    (∀ bytes, snapshot.read a length = .ok bytes ↔
      ∃ region, Standing calls region ∧ region.Holds a ∧ a.toNat - region.start.toNat + length ≤ region.bytes.length ∧
        bytes = (region.bytes.drop (a.toNat - region.start.toNat)).take length) ∧
    (∀ place wanted got, snapshot.read a length = .error (.truncated place wanted got) ↔
      place = a ∧ wanted = length ∧ ∃ region, Standing calls region ∧ region.Holds a ∧
        got = region.bytes.length - (a.toNat - region.start.toNat) ∧ got < length) ∧
    (∀ place wanted, snapshot.read a length = .error (.unmapped place wanted) ↔
      place = a ∧ wanted = length ∧ ∀ region, Standing calls region → ¬ region.Holds a) ∧
    (snapshot.isReadable a = true ↔ ∃ region, Standing calls region ∧ region.Holds a) ∧
    (∀ bytes, snapshot.read a length = .ok bytes → ∀ k < length, a.toNat + k < UInt64.size →
      ∃ front back, snapshot.read a k = .ok front ∧ snapshot.read (a + UInt64.ofNat k) (length - k) = .ok back ∧
        front ++ back = bytes) :=
  ⟨read_ok_iff calls apart a length, read_truncated_iff calls apart a length, read_unmapped_iff calls apart a length,
    readable_holds calls apart a, read_split calls apart a length⟩

theorem reads_scan_regions_crowded :
    let calls : List Region := [⟨0x1000, [9, 9, 9, 9, 9, 9], 0⟩, ⟨0x1000, [1, 2, 3], 1⟩, ⟨0x1004, [], 0⟩,
      ⟨0xfffffffffffffffe, [7, 8, 5], 0⟩]
    (∀ one other, Standing calls one → Standing calls other → one ≠ other → ¬ one.Holds other.start) ∧
      (mapped calls).read 0x1001 3 = .ok [2, 3, 0] ∧
      (mapped calls).read 0x1002 4 = .error (.truncated 0x1002 4 2) ∧
      (mapped calls).read 0x1004 0 = .error (.unmapped 0x1004 0) ∧
      (mapped calls).isReadable 0xffffffffffffffff = true ∧
      (∃ front back, (mapped calls).read 0xfffffffffffffffe 1 = .ok front ∧
        (mapped calls).read 0xffffffffffffffff 2 = .ok back ∧ front ++ back = [7, 8, 5]) := by
  intro calls
  let low : Region := ⟨0x1000, [1, 2, 3], 1⟩
  let high : Region := ⟨0xfffffffffffffffe, [7, 8, 5], 0⟩
  have regions : (mapped calls).regions = [low, ⟨0x1004, [], 0⟩, high] := by decide
  have standing (region : Region) : Standing calls region ↔ region ∈ [low, ⟨0x1004, [], 0⟩, high] := by
    rw [← standing_iff, regions]
  have separate : ∀ one ∈ [low, ⟨0x1004, [], 0⟩, high], ∀ other ∈ [low, ⟨0x1004, [], 0⟩, high],
      one ≠ other → ¬ one.Holds other.start := by
    decide
  have apart : ∀ one other, Standing calls one → Standing calls other → one ≠ other → ¬ one.Holds other.start := by
    intro one other oneStanding otherStanding
    exact separate one ((standing one).mp oneStanding) other ((standing other).mp otherStanding)
  have lowStanding : Standing calls low := (standing low).mpr (by decide)
  have highStanding : Standing calls high := (standing high).mpr (by decide)
  refine ⟨apart, ?_, ?_, ?_, ?_, ?_⟩
  · exact ((reads_scan_regions calls apart 0x1001 3).1 _).mpr ⟨low, lowStanding, by decide, by decide, by decide⟩
  · refine ((reads_scan_regions calls apart 0x1002 4).2.1 _ _ _).mpr ⟨rfl, rfl, low, lowStanding, ?_⟩
    exact ⟨by decide, by decide, by decide⟩
  · refine ((reads_scan_regions calls apart 0x1004 0).2.2.1 _ _).mpr ⟨rfl, rfl, fun region present => ?_⟩
    have outside : ∀ region ∈ [low, ⟨0x1004, [], 0⟩, high], ¬ region.Holds 0x1004 := by decide
    exact outside region ((standing region).mp present)
  · exact (reads_scan_regions calls apart 0xffffffffffffffff 0).2.2.2.1.mpr ⟨high, highStanding, by decide⟩
  · have whole := ((reads_scan_regions calls apart 0xfffffffffffffffe 3).1 [7, 8, 5]).mpr
      ⟨high, highStanding, by decide, by decide, by decide⟩
    exact (reads_scan_regions calls apart 0xfffffffffffffffe 3).2.2.2.2 _ whole 1 (by decide) (by decide)

end Snapshot

end FunctionDiscovery
