import FunctionDiscovery.Proofs.MappedRegions
import Mathlib.Algebra.Order.Ring.Nat

set_option autoImplicit false

namespace FunctionDiscovery

namespace Bytes

theorem of_nat_length (width value : Nat) : (ofNat width value).length = width := by
  induction width generalizing value with
  | zero => rfl
  | succ width ih => rw [ofNat, List.length_cons, ih]

theorem to_nat_of_nat (width value : Nat) : (ofNat width value).toNat = value % 256 ^ width := by
  induction width generalizing value with
  | zero => rw [ofNat, toNat, pow_zero, Nat.mod_one]
  | succ width ih =>
    have low : (UInt8.ofNat (value % 256)).toNat = value % 256 := by
      rw [UInt8.toNat_ofNat', Nat.mod_mod]
    rw [ofNat, toNat, ih, low, pow_succ', Nat.mod_mul]

theorem take_of_nat (fewer width value : Nat) (part : fewer ≤ width) :
    (ofNat width value).take fewer = ofNat fewer value := by
  induction fewer generalizing width value with
  | zero => rfl
  | succ fewer ih =>
    obtain ⟨width, rfl⟩ : ∃ more, width = more + 1 := ⟨width - 1, by omega⟩
    rw [ofNat, ofNat, List.take_succ_cons, ih width (value / 256) (Nat.le_of_succ_le_succ part)]

end Bytes

namespace Snapshot

variable (snapshot : Snapshot) (region : Region) (ascending : Keyed.Ascending Region.start snapshot.regions)

include ascending

theorem region_insert_hidden (a : Address)
    (hidden : a < region.start ∨ ∃ other ∈ snapshot.regions, region.start < other.start ∧ other.start ≤ a) :
    (snapshot.insert region).region? a = snapshot.region? a := by
  rw [region?, region?, insert, Keyed.floor_insert_hidden Region.start a region snapshot.regions ascending hidden]

theorem region_insert_start (filled : region.bytes ≠ []) :
    (snapshot.insert region).region? region.start = some region := by
  rw [region_found]
  constructor
  · exact Keyed.floor_insert_nearest Region.start region.start region snapshot.regions ascending (UInt64.le_refl _)
      fun other _ below => below
  · rw [region.offset_eq _ (UInt64.le_refl _), Nat.sub_self, ← region.bytes_length]
    exact List.length_pos_iff.mpr filled

theorem read_insert_start (length : Nat) (filled : region.bytes ≠ []) :
    (snapshot.insert region).read region.start length =
      if length ≤ region.bytes.length then .ok (region.bytes.take length)
      else .error (.truncated region.start length region.bytes.length) := by
  rw [read_holding _ _ length region (region_insert_start snapshot region ascending filled), Nat.sub_self, Nat.zero_add,
    List.drop_zero, Nat.sub_zero]

omit ascending

theorem answers_congr (one other : Snapshot) (a : Address) (same : one.region? a = other.region? a) :
    (∀ length, one.read a length = other.read a length) ∧
    (∀ width, one.memory.readPointer a width = other.memory.readPointer a width) ∧
    one.isReadable a = other.isReadable a := by
  have reads (length : Nat) : one.read a length = other.read a length := by
    rw [read, read, same]
  refine ⟨reads, fun width => ?_, ?_⟩
  · exact congrArg (Except.map fun bytes => UInt64.ofNat bytes.toNat) (reads width.bytes)
  · rw [isReadable, isReadable, same]

theorem pointer_read (a value : Address) (cell width : PointerWidth)
    (ascending : Keyed.Ascending Region.start snapshot.regions) :
    ((snapshot.mapPointer a value cell).memory.readPointer a width).map UInt64.toNat =
      if width.bytes ≤ cell.bytes then .ok (value.toNat % 2 ^ (8 * width.bytes))
      else .error (.truncated a width.bytes cell.bytes) := by
  let region : Region := { start := a, stored := Bytes.ofNat cell.bytes value.toNat }
  have bytes : region.bytes = Bytes.ofNat cell.bytes value.toNat := List.append_nil _
  have length : region.bytes.length = cell.bytes := by
    rw [bytes, Bytes.of_nat_length]
  have filled : region.bytes ≠ [] := by
    rw [← List.length_pos_iff, length]
    cases cell <;> decide
  have found := read_insert_start snapshot region ascending width.bytes filled
  have stored : (snapshot.mapPointer a value cell).memory.readPointer a width =
      ((snapshot.insert region).read region.start width.bytes).map fun bytes => UInt64.ofNat bytes.toNat := rfl
  rw [stored, found, length, bytes]
  by_cases part : width.bytes ≤ cell.bytes
  · have small : value.toNat % 2 ^ (8 * width.bytes) < UInt64.size :=
      Nat.lt_of_le_of_lt (Nat.mod_le _ _) value.toNat_lt
    have power : 256 ^ width.bytes = 2 ^ (8 * width.bytes) := by
      rw [pow_mul]
      rfl
    rw [if_pos part, if_pos part, Bytes.take_of_nat _ _ _ part]
    simp only [Except.map, Bytes.to_nat_of_nat, power]
    rw [UInt64.toNat_ofNat_of_lt' small]
  · rw [if_neg part, if_neg part]
    rfl

-- An address is at or above the least start after `a` if it is at or above any of them.
theorem mapping_seen_from_start (calls : List Region) (a : Address) :
    let snapshot := mapped calls
    (∀ value width, ((snapshot.mapPointer a value width).memory.readPointer a width).map UInt64.toNat =
      .ok (value.toNat % 2 ^ (8 * width.bytes))) ∧
    (∀ value, ((snapshot.mapPointer a value .bits64).memory.readPointer a .bits32).map UInt64.toNat =
      .ok (value.toNat % 2 ^ 32)) ∧
    (∀ value, (snapshot.mapPointer a value .bits32).memory.readPointer a .bits64 = .error (.truncated a 8 4)) ∧
    (∀ bytes x, (x < a ∨ ∃ region ∈ snapshot.regions, a < region.start ∧ region.start ≤ x) →
      (∀ length, (snapshot.map a bytes).read x length = snapshot.read x length) ∧
      (∀ width, (snapshot.map a bytes).memory.readPointer x width = snapshot.memory.readPointer x width) ∧
      (snapshot.map a bytes).isReadable x = snapshot.isReadable x) := by
  intro snapshot
  have ascending := ascending_mapped calls
  refine ⟨fun value width => ?_, fun value => ?_, fun value => ?_, fun bytes x elsewhere => ?_⟩
  · rw [pointer_read snapshot a value width width ascending, if_pos (Nat.le_refl _)]
  · exact pointer_read snapshot a value .bits64 .bits32 ascending
  · have refused := pointer_read snapshot a value .bits32 .bits64 ascending
    cases read : (snapshot.mapPointer a value .bits32).memory.readPointer a .bits64 with
    | ok pointer => simp [read, Except.map, PointerWidth.bytes] at refused
    | error fault =>
      rw [read] at refused
      exact congrArg Except.error (Except.error.inj refused)
  · apply answers_congr
    exact region_insert_hidden snapshot { start := a, stored := bytes } ascending x elsewhere

-- The pointer lies across two regions that lie across one another. The lower one still reads as a whole.
theorem mapping_seen_from_start_across :
    let snapshot := mapped [⟨0x1000, List.replicate 16 1, 0⟩, ⟨0x1008, [2, 2, 2], 0⟩]
    let pointer : Bytes := [0x88, 0x77, 0x66, 0x55, 0x44, 0x33, 0x22, 0x11]
    (((snapshot.mapPointer 0x1004 0x1122334455667788 .bits64).memory.readPointer 0x1004 .bits32).map UInt64.toNat =
      .ok 0x55667788) ∧
      (snapshot.map 0x1004 pointer).read 0x1000 16 = .ok (List.replicate 16 1) ∧
      ((0x1009 : Address) < 0x1004 ∨ ∃ region ∈ snapshot.regions, 0x1004 < region.start ∧ region.start ≤ 0x1009) ∧
      (snapshot.map 0x1004 pointer).read 0x1009 2 = .ok [2, 2] ∧
      (snapshot.map 0x1004 pointer).isReadable 0x100b = false := by
  intro snapshot pointer
  obtain ⟨-, narrow, -, frame⟩ :=
    mapping_seen_from_start [⟨0x1000, List.replicate 16 1, 0⟩, ⟨0x1008, [2, 2, 2], 0⟩] 0x1004
  have upper : (⟨0x1008, [2, 2, 2], 0⟩ : Region) ∈ snapshot.regions := by decide
  have lower := frame pointer 0x1000 (.inl (by decide))
  have inUpper := frame pointer 0x1009 (.inr ⟨_, upper, by decide, by decide⟩)
  have behind := frame pointer 0x100b (.inr ⟨_, upper, by decide, by decide⟩)
  refine ⟨(narrow _).trans (by decide), (lower.1 16).trans (by decide), .inr ⟨_, upper, by decide, by decide⟩,
    (inUpper.1 2).trans (by decide), behind.2.2.trans (by decide)⟩

end Snapshot

end FunctionDiscovery
