import FunctionDiscovery.Proofs.BlockFaults
import FunctionDiscovery.Proofs.CompletionOrder
import FunctionDiscovery.Proofs.Repetition

set_option autoImplicit false

namespace FunctionDiscovery

theorem Flags.masked_or (flags set : UInt32) : (flags ||| set) &&& ~~~set = flags &&& ~~~set := by
  apply UInt32.toBitVec_inj.mp
  apply BitVec.eq_of_getLsbD_eq
  intro bit _
  simp only [UInt32.toBitVec_and, UInt32.toBitVec_or, UInt32.toBitVec_not, BitVec.getLsbD_and, BitVec.getLsbD_or,
    BitVec.getLsbD_not]
  cases set.toBitVec.getLsbD bit <;> simp

namespace IndexRange

def clamp (range : IndexRange) (size : Nat) : IndexRange :=
  ⟨min range.first (min range.stop size), min range.stop size⟩

theorem contains_iff (range : IndexRange) (index : Nat) :
    range.contains index = true ↔ range.first ≤ index ∧ index < range.stop := by
  simp [contains]

theorem clamp_contains (range : IndexRange) (size index : Nat) (bound : index < size) :
    (range.clamp size).contains index = range.contains index := by
  rw [Bool.eq_iff_iff, contains_iff, contains_iff, clamp]
  dsimp only
  omega

theorem clamp_ordered (range : IndexRange) (size : Nat) : (range.clamp size).first ≤ (range.clamp size).stop := by
  simp only [clamp]
  omega

end IndexRange

namespace BlockMap

theorem claim_at_inside (range : IndexRange) (index : Nat) (inside : range.contains index = true) :
    claimAt range index = Block.claim := by
  funext block
  rw [claimAt, if_pos inside]

theorem claim_at_outside (range : IndexRange) (index : Nat) (outside : range.contains index = false) :
    claimAt range index = id := by
  funext block
  rw [claimAt, if_neg (Bool.eq_false_iff.mp outside), id]

theorem claim_between (blocks : List Block) (range : IndexRange) (ordered : range.first ≤ range.stop)
    (bounded : range.stop ≤ blocks.length) :
    blocks.mapIdx (claimAt range) = blocks.take range.first ++
      ((blocks.take range.stop).drop range.first).map Block.claim ++ blocks.drop range.stop := by
  have front : (blocks.take range.first).length = range.first := by
    rw [List.length_take]
    omega
  have middle : (((blocks.take range.stop).drop range.first).map Block.claim).length = range.stop - range.first := by
    rw [List.length_map, List.length_drop, List.length_take]
    omega
  apply List.ext_getElem?
  intro index
  rw [List.getElem?_mapIdx, List.getElem?_append, List.getElem?_append, List.length_append, front, middle]
  -- Three places for an index: before the range, in it and after it.
  by_cases low : index < range.first
  · have outside : range.contains index = false := by simp [IndexRange.contains, low]
    rw [claim_at_outside range index outside, Option.map_id, if_pos (by omega), if_pos low, List.getElem?_take_of_lt low]
    rfl
  · have above := Nat.not_lt.mp low
    by_cases high : index < range.stop
    · have inside : range.contains index = true := (range.contains_iff index).mpr ⟨above, high⟩
      rw [claim_at_inside range index inside, if_pos (by omega), if_neg low, List.getElem?_map, List.getElem?_drop,
        Nat.add_sub_cancel' above, List.getElem?_take_of_lt high]
    · have outside : range.contains index = false := by simp [IndexRange.contains, high]
      rw [claim_at_outside range index outside, Option.map_id, if_neg (by omega), List.getElem?_drop,
        Nat.add_sub_cancel' ordered, Nat.add_sub_cancel' (Nat.not_lt.mp high)]
      rfl

variable (map : BlockMap) (range : IndexRange)

theorem claim_clamped : (map.claim range).toList = map.toList.mapIdx (claimAt (range.clamp map.size)) := by
  rw [toList, claim, Array.toList_mapIdx]
  apply List.ext_getElem?
  intro index
  rw [List.getElem?_mapIdx, toList, List.getElem?_mapIdx]
  refine Option.map_congr fun block access => ?_
  have bound : index < map.size := (List.getElem?_eq_some_iff.mp access).1
  rw [claimAt, claimAt, range.clamp_contains map.size index bound]

def reached : List Block := (map.toList.take (range.clamp map.size).stop).drop (range.clamp map.size).first

theorem claim_slice :
    (map.claim range).toList = map.toList.take (range.clamp map.size).first ++
      (map.reached range).map Block.claim ++ map.toList.drop (range.clamp map.size).stop := by
  rw [claim_clamped, reached]
  exact claim_between map.toList (range.clamp map.size) (range.clamp_ordered map.size) (Nat.min_le_right _ _)

theorem to_list_slice :
    map.toList = map.toList.take (range.clamp map.size).first ++ map.reached range ++
      map.toList.drop (range.clamp map.size).stop := by
  have shorter : (map.toList.take (range.clamp map.size).stop).take (range.clamp map.size).first =
      map.toList.take (range.clamp map.size).first := by
    rw [List.take_take, Nat.min_eq_left (range.clamp_ordered map.size)]
  rw [reached, ← shorter, List.take_append_drop, List.take_append_drop]

theorem unclaimed_slice : map.unclaimedIn range = (map.reached range).countP fun block => !block.isClaimed := by
  have marked : ((map.reached range).map Block.claim).countP Block.isClaimed = (map.reached range).length := by
    rw [List.countP_map, List.countP_eq_length]
    exact fun block _ => Block.claim_is_claimed block
  have halves : (map.reached range).length =
      (map.reached range).countP Block.isClaimed + (map.reached range).countP fun block => !block.isClaimed := by
    simp [List.length_eq_countP_add_countP Block.isClaimed]
  -- Both counts of claimed blocks fall into three parts, and only the middle one differs.
  have before := congrArg (List.countP Block.isClaimed) (to_list_slice map range)
  have after := congrArg (List.countP Block.isClaimed) (claim_slice map range)
  have count := claim_count map range
  rw [List.countP_append, List.countP_append] at before after
  rw [claimed_count_list, claimed_count_list] at count
  omega

theorem of_list_to_list : ofList map.toList = .ok map := by
  obtain ⟨other, taken⟩ := (accepted_iff map.toList).mpr ⟨map.filled, to_list_stacked map⟩
  have kept : other.blocks = map.blocks := Array.toList_inj.mp (of_list_kept map.toList other taken)
  rw [taken, eq_of_blocks other map fun index => by rw [kept]]

end BlockMap

theorem Block.claim_other_flags (block : Block) :
    block.claim.flags &&& ~~~Flags.claimed = block.flags &&& ~~~Flags.claimed :=
  Flags.masked_or block.flags Flags.claimed

namespace Discovery

theorem claim_all_block (blocks : BlockMap) (ranges : List IndexRange) (index : Nat) (before left : Block)
    (beforeAt : blocks.blocks[index]? = some before) (leftAt : (claimAll blocks ranges).1.blocks[index]? = some left) :
    (left.isClaimed = true ↔ before.isClaimed = true ∨ ∃ range ∈ ranges, range.first ≤ index ∧ index < range.stop) ∧
      left.start = before.start ∧ left.stop = before.stop ∧ left.target = before.target ∧
      left.flags &&& ~~~Flags.claimed = before.flags &&& ~~~Flags.claimed := by
  rw [claim_all_get, beforeAt, Option.map_some, Option.some.injEq] at leftAt
  have covered : (ranges.any fun range => range.contains index) = true ↔
      ∃ range ∈ ranges, range.first ≤ index ∧ index < range.stop := by
    simp only [List.any_eq_true, IndexRange.contains_iff]
  rw [← covered, ← leftAt]
  cases ranges.any fun range => range.contains index with
  | true => exact ⟨by simp [Block.claim_is_claimed], rfl, rfl, rfl, before.claim_other_flags⟩
  | false => exact ⟨by simp, rfl, rfl, rfl, rfl⟩

theorem claims_commute (blocks : BlockMap) (arrived ranges : List IndexRange) (order : arrived.Perm ranges) :
    let after := claimAll blocks ranges
    claimAll blocks arrived = after ∧ after.1.claimedCount = blocks.claimedCount + after.2 ∧
      after.1.size = blocks.size ∧
      (∀ (index : Nat) (before left : Block), blocks.blocks[index]? = some before → after.1.blocks[index]? = some left →
        (left.isClaimed = true ↔ before.isClaimed = true ∨ ∃ range ∈ ranges, range.first ≤ index ∧ index < range.stop) ∧
          left.start = before.start ∧ left.stop = before.stop ∧ left.target = before.target ∧
          left.flags &&& ~~~Flags.claimed = before.flags &&& ~~~Flags.claimed) ∧
      BlockMap.ofList after.1.toList = .ok after.1 ∧ (∀ a, after.1.find? a = blocks.find? a) ∧
      ∀ range, (blocks.claim range).toList = blocks.toList.take (range.clamp blocks.size).first ++
          (blocks.reached range).map Block.claim ++ blocks.toList.drop (range.clamp blocks.size).stop ∧
        blocks.unclaimedIn range = (blocks.reached range).countP fun block => !block.isClaimed := by
  intro after
  have alike := claim_all_alike blocks ranges
  exact ⟨claim_all_order blocks arrived ranges order, claim_all_count blocks ranges,
    BlockMap.alike_size _ blocks alike, claim_all_block blocks ranges, BlockMap.of_list_to_list after.1,
    BlockMap.alike_find _ blocks alike, fun range => ⟨blocks.claim_slice range, blocks.unclaimed_slice range⟩⟩

def partlyClaimed : BlockMap :=
  ⟨#[⟨0x1000, 0x1010, 0, 0⟩, ⟨0x1010, 0x1020, 0, 0x84⟩, ⟨0x1030, 0x1040, 0, 0⟩], by decide, by decide⟩

theorem claims_commute_overlapping :
    let ranges : List IndexRange := [⟨0, 2⟩, ⟨1, 9⟩, ⟨2, 1⟩]
    ranges.reverse.Perm ranges ∧ claimAll partlyClaimed ranges.reverse = claimAll partlyClaimed ranges ∧
      partlyClaimed.claimedCount = 1 ∧ (claimAll partlyClaimed ranges).1.claimedCount = 3 ∧
      (claimAll partlyClaimed ranges).2 = 2 := by
  intro ranges
  have order := ranges.reverse_perm
  obtain ⟨same, count, -⟩ := claims_commute partlyClaimed ranges.reverse ranges order
  have before : partlyClaimed.claimedCount = 1 := by decide
  have after : (claimAll partlyClaimed ranges).1.claimedCount = 3 := by decide
  exact ⟨order, same, before, after, by omega⟩

end Discovery

end FunctionDiscovery
