import FunctionDiscovery.Proofs.BlockLookup
import FunctionDiscovery.Proofs.ClaimSequences

set_option autoImplicit false

namespace FunctionDiscovery

namespace BlockMap

variable (map : BlockMap) (a : Address)

def Missed : Prop :=
  (∀ first, map.blocks[0]? = some first → a < first.start) ∨ (∃ index, map.gapAfter index a = true) ∨
    ∀ last, map.blocks[map.size - 1]? = some last → last.stop ≤ a

theorem find_linear : map.find? a = map.toList.findIdx? fun block => block.contains a := by
  symm
  cases found : map.find? a with
  | none =>
    rw [List.findIdx?_eq_none_iff]
    exact (find_none_iff map a).mp found
  | some index =>
    obtain ⟨block, access, inside⟩ := find_sound map a index found
    obtain ⟨bound, rfl⟩ := Array.getElem?_eq_some_iff.mp access
    refine List.findIdx?_eq_some_iff_getElem.mpr ⟨bound, inside, fun earlier less holds => ?_⟩
    -- An earlier block with the address would be the one that is found.
    have other := find_complete map a earlier _ (Array.getElem?_eq_getElem (Nat.lt_trans less bound)) holds
    rw [found] at other
    exact Nat.ne_of_gt less (Option.some.inj other)

theorem inspected_in_range (index : Nat)
    (inspected : (Search.partitionPoint map.blocks fun block => block.start ≤ a) = index + 1) : index < map.size := by
  obtain ⟨bound, -⟩ := Search.partition_point_separates map.blocks _ (starts_falling map a)
  rw [inspected] at bound
  exact bound

theorem missed_of_none (absent : map.find? a = none) : map.Missed a := by
  obtain ⟨bound, separates⟩ := Search.partition_point_separates map.blocks _ (starts_falling map a)
  generalize (Search.partitionPoint map.blocks fun block => decide (block.start ≤ a)) = point at bound separates
  have above (index : Nat) (block : Block) (access : map.blocks[index]? = some block) (later : point ≤ index) :
      a < block.start := by
    have fails := mt (separates index block access).mp (Nat.not_lt.mpr later)
    exact UInt64.not_le.mp fun below => fails (decide_eq_true below)
  -- The cases are those of the search: no block starts at or before the address, or a last one does.
  cases point with
  | zero => exact .inl fun first access => above 0 first access (Nat.le_refl 0)
  | succ index =>
    obtain ⟨lower, lowerAt⟩ := block_at map index bound
    have below := of_decide_eq_true ((separates index lower lowerAt).mpr (Nat.lt_succ_self index))
    have ended : lower.stop ≤ a := by
      have outside := (find_none_iff map a).mp absent lower (Array.mem_toList_iff.mpr (Array.mem_of_getElem? lowerAt))
      refine UInt64.not_lt.mp fun less => ?_
      rw [(lower.contains_iff a).mpr ⟨below, less⟩] at outside
      exact Bool.noConfusion outside
    by_cases next : index + 1 < map.size
    · obtain ⟨upper, upperAt⟩ := block_at map (index + 1) next
      have before := above (index + 1) upper upperAt (Nat.le_refl _)
      exact .inr (.inl ⟨index, (gap_after_iff map index a).mpr ⟨lower, upper, lowerAt, upperAt, ended, before⟩⟩)
    · have final : map.size - 1 = index := by
        simp only [size] at next bound ⊢
        omega
      refine .inr (.inr fun last lastAt => ?_)
      rw [final, lowerAt] at lastAt
      exact Option.some.inj lastAt ▸ ended

theorem none_of_missed (missed : map.Missed a) : map.find? a = none := by
  rw [Option.eq_none_iff_forall_ne_some]
  intro index found
  obtain ⟨block, access, inside⟩ := find_sound map a index found
  obtain ⟨start, stop⟩ := (block.contains_iff a).mp inside
  have bound := (Array.getElem?_eq_some_iff.mp access).1
  rcases missed with before | ⟨gap, between⟩ | past
  · obtain ⟨first, firstAt⟩ := block_at map 0 (Nat.zero_lt_of_lt bound)
    have atMost := starts_ascend map 0 index first block (Nat.zero_le _) firstAt access
    exact UInt64.lt_irrefl a (UInt64.lt_of_lt_of_le (before first firstAt) (UInt64.le_trans atMost start))
  · obtain ⟨lower, upper, lowerAt, upperAt, ended, later⟩ := (gap_after_iff map gap a).mp between
    by_cases low : index ≤ gap
    · have atMost := stops_ascend map index gap block lower low access lowerAt
      exact UInt64.lt_irrefl a (UInt64.lt_of_lt_of_le stop (UInt64.le_trans atMost ended))
    · have atMost := starts_ascend map (gap + 1) index upper block (Nat.not_le.mp low) upperAt access
      exact UInt64.lt_irrefl a (UInt64.lt_of_lt_of_le later (UInt64.le_trans atMost start))
  · obtain ⟨last, lastAt⟩ := block_at map (map.size - 1) (Nat.sub_one_lt_of_lt bound)
    have atMost := stops_ascend map index (map.size - 1) block last (Nat.le_sub_one_of_lt bound) access lastAt
    exact UInt64.lt_irrefl a (UInt64.lt_of_lt_of_le stop (UInt64.le_trans atMost (past last lastAt)))

theorem find_none_missed : map.find? a = none ↔ map.Missed a := ⟨missed_of_none map a, none_of_missed map a⟩

end BlockMap

namespace Discovery

theorem find_as_scan (blocks : List Block) (map : BlockMap) (ranges : List IndexRange) (a : Address)
    (accepted : BlockMap.ofList blocks = .ok map) :
    let after := (claimAll map ranges).1
    after.find? a = (after.toList.findIdx? fun block => block.contains a) ∧
    after.find? a = (blocks.findIdx? fun block => block.contains a) ∧
    (∀ index, after.find? a = some index ↔
      ∃ block, after.blocks[index]? = some block ∧ block.start ≤ a ∧ a < block.stop) ∧
    (∀ (i j : Nat) (one other : Block), after.blocks[i]? = some one → after.blocks[j]? = some other →
      one.start ≤ a ∧ a < one.stop → other.start ≤ a ∧ a < other.stop → i = j) ∧
    (after.find? a = none ↔ ∀ block ∈ after.toList, ¬ (block.start ≤ a ∧ a < block.stop)) ∧
    (after.find? a = none ↔ after.Missed a) ∧
    ∀ index, (Search.partitionPoint after.blocks fun block => block.start ≤ a) = index + 1 → index < after.size := by
  intro after
  have unclaimed : after.find? a = map.find? a := BlockMap.alike_find _ map (claim_all_alike map ranges) a
  have found (index : Nat) : after.find? a = some index ↔
      ∃ block, after.blocks[index]? = some block ∧ block.start ≤ a ∧ a < block.stop := by
    simp only [BlockMap.find_iff, Block.contains_iff]
  refine ⟨after.find_linear a, ?_, found, ?_, ?_, after.find_none_missed a, after.inspected_in_range a⟩
  · rw [unclaimed, map.find_linear a, BlockMap.of_list_kept blocks map accepted]
  · intro i j one other oneAt otherAt inOne inOther
    have first := (found i).mpr ⟨one, oneAt, inOne⟩
    have second := (found j).mpr ⟨other, otherAt, inOther⟩
    exact Option.some.inj (first.symm.trans second)
  · simp only [BlockMap.find_none_iff, Bool.eq_false_iff, ne_eq, Block.contains_iff]

theorem find_as_scan_claimed :
    let after := (claimAll partlyClaimed [⟨0, 2⟩, ⟨1, 9⟩]).1
    BlockMap.ofList partlyClaimed.toList = .ok partlyClaimed ∧ after.find? 0x1010 = some 1 ∧
      after.find? 0x101f = some 1 ∧ after.find? 0x1020 = none ∧ after.Missed 0x1020 ∧ after.find? 0xfff = none ∧
      after.find? 0x1040 = none := by
  intro after
  have accepted := partlyClaimed.of_list_to_list
  have scanned (a : Address) : after.find? a = (partlyClaimed.toList.findIdx? fun block => block.contains a) :=
    (find_as_scan partlyClaimed.toList partlyClaimed [⟨0, 2⟩, ⟨1, 9⟩] a accepted).2.1
  have gap : after.find? 0x1020 = none := (scanned 0x1020).trans (by decide)
  obtain ⟨-, -, -, -, -, missed, -⟩ :=
    find_as_scan partlyClaimed.toList partlyClaimed [⟨0, 2⟩, ⟨1, 9⟩] 0x1020 accepted
  exact ⟨accepted, (scanned _).trans (by decide), (scanned _).trans (by decide), gap, missed.mp gap,
    (scanned _).trans (by decide), (scanned _).trans (by decide)⟩

end Discovery

end FunctionDiscovery
