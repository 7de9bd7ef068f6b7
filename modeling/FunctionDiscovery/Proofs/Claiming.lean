import FunctionDiscovery.Discovery

set_option autoImplicit false

namespace FunctionDiscovery

namespace Block

theorem claim_claim (block : Block) : block.claim.claim = block.claim := by
  simp [claim, UInt32.or_assoc]

theorem claim_is_claimed (block : Block) : block.claim.isClaimed = true := by
  have absorbed : (block.flags ||| Flags.claimed) &&& Flags.claimed = Flags.claimed := by
    apply UInt32.toBitVec_inj.mp
    apply BitVec.eq_of_getLsbD_eq
    intro bit _
    simp only [UInt32.toBitVec_and, UInt32.toBitVec_or, BitVec.getLsbD_and, BitVec.getLsbD_or]
    cases block.flags.toBitVec.getLsbD bit <;> simp
  simp [isClaimed, Flags.has, claim, absorbed]

end Block

namespace BlockMap

theorem eq_of_blocks (a b : BlockMap) (same : ∀ index : Nat, a.blocks[index]? = b.blocks[index]?) : a = b := by
  cases a
  cases b
  have blocks := Array.ext_getElem? same
  dsimp only at blocks
  subst blocks
  rfl

theorem claim_get (map : BlockMap) (range : IndexRange) (index : Nat) :
    (map.claim range).blocks[index]? = map.blocks[index]?.map (claimAt range index) := by
  simp [claim]

theorem claim_at_claimed (range : IndexRange) (index : Nat) (block : Block) :
    (claimAt range index block).isClaimed = (block.isClaimed || range.contains index) := by
  rw [claimAt]
  cases inside : range.contains index with
  | true => simp [Block.claim_is_claimed]
  | false => simp

end BlockMap

theorem count_split {α : Type} (p q : α → Bool) (xs : List α) :
    xs.countP (fun x => p x || q x) = xs.countP p + xs.countP fun x => q x && !p x := by
  induction xs with
  | nil => rfl
  | cons x xs ih =>
    rw [List.countP_cons, List.countP_cons, List.countP_cons, ih]
    cases p x <;> cases q x <;> simp <;> omega

theorem count_zip_idx {α : Type} (p : α → Bool) (xs : List α) (first : Nat) :
    (xs.zipIdx first).countP (fun entry => p entry.1) = xs.countP p := by
  induction xs generalizing first with
  | nil => rfl
  | cons x xs ih => rw [List.zipIdx_cons, List.countP_cons, List.countP_cons, ih]

namespace BlockMap

theorem claimed_count_list (map : BlockMap) : map.claimedCount = map.toList.countP Block.isClaimed := by
  rw [claimedCount, toList, Array.countP_toList]

theorem claim_count (map : BlockMap) (range : IndexRange) :
    (map.claim range).claimedCount = map.claimedCount + map.unclaimedIn range := by
  -- Both counts become counts over the blocks with their indices, where the tests can be compared.
  have before : map.claimedCount = map.toList.zipIdx.countP fun entry => entry.1.isClaimed := by
    rw [count_zip_idx Block.isClaimed, claimed_count_list]
  have after : (map.claim range).claimedCount =
      map.toList.zipIdx.countP fun entry => entry.1.isClaimed || range.contains entry.2 := by
    rw [claimed_count_list, toList, claim, Array.toList_mapIdx, List.mapIdx_eq_zipIdx_map, List.countP_map]
    congr 1
    funext entry
    exact claim_at_claimed range entry.2 entry.1
  rw [after, before]
  exact count_split (fun entry : Block × Nat => entry.1.isClaimed) (fun entry => range.contains entry.2) _

end BlockMap

namespace Discovery

theorem claim_all_count_from (blocks : BlockMap) (ranges : List IndexRange) (count : Nat) :
    ranges.foldl (fun (blocks, count) range => (blocks.claim range, count + blocks.unclaimedIn range))
      (blocks, count) = ((claimAll blocks ranges).1, count + (claimAll blocks ranges).2) := by
  induction ranges generalizing blocks count with
  | nil => rfl
  | cons range rest ih =>
    rw [claimAll, List.foldl_cons, List.foldl_cons, ih, ih, Nat.zero_add, Nat.add_assoc]

theorem claim_all_cons (blocks : BlockMap) (range : IndexRange) (rest : List IndexRange) :
    claimAll blocks (range :: rest) = ((claimAll (blocks.claim range) rest).1,
      blocks.unclaimedIn range + (claimAll (blocks.claim range) rest).2) := by
  rw [claimAll, List.foldl_cons, claim_all_count_from, Nat.zero_add]

theorem claim_all_get (blocks : BlockMap) (ranges : List IndexRange) (index : Nat) :
    (claimAll blocks ranges).1.blocks[index]? = blocks.blocks[index]?.map fun block =>
      if ranges.any fun range => range.contains index then block.claim else block := by
  induction ranges generalizing blocks with
  | nil => simp [claimAll]
  | cons range rest ih =>
    rw [claim_all_cons, ih, BlockMap.claim_get, Option.map_map]
    congr 1
    funext block
    simp only [Function.comp_apply, BlockMap.claimAt, List.any_cons]
    by_cases inside : range.contains index = true
    · simp [inside, Block.claim_claim]
    · simp [inside]

theorem claim_all_count (blocks : BlockMap) (ranges : List IndexRange) :
    (claimAll blocks ranges).1.claimedCount = blocks.claimedCount + (claimAll blocks ranges).2 := by
  induction ranges generalizing blocks with
  | nil => rfl
  | cons range rest ih => rw [claim_all_cons, ih, BlockMap.claim_count, Nat.add_assoc]

end Discovery

end FunctionDiscovery
