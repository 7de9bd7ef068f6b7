import FunctionDiscovery.Proofs.Partition
import Mathlib.Algebra.Order.Floor.Div

set_option autoImplicit false

namespace FunctionDiscovery.Shard

theorem chained_next (first stop : Nat) (ranges : List IndexRange) (chained : Chained first ranges stop) (index : Nat)
    (lower upper : IndexRange) (atIndex : ranges[index]? = some lower) (atNext : ranges[index + 1]? = some upper) :
    upper.first = lower.stop := by
  induction ranges generalizing first index with
  | nil => simp at atIndex
  | cons head rest ih =>
    obtain ⟨-, -, tail⟩ := chained
    cases index with
    | succ index => exact ih head.stop tail index atIndex atNext
    | zero =>
      obtain rfl : head = lower := Option.some.inj atIndex
      cases rest with
      | nil => simp at atNext
      | cons second others =>
        obtain rfl : second = upper := Option.some.inj atNext
        exact tail.1

theorem chained_head (first stop : Nat) (ranges : List IndexRange) (chained : Chained first ranges stop)
    (range : IndexRange) (head : ranges.head? = some range) : range.first = first := by
  cases ranges with
  | nil => simp at head
  | cons front rest =>
    obtain rfl : front = range := Option.some.inj head
    exact chained.1

theorem chained_last (first stop : Nat) (ranges : List IndexRange) (chained : Chained first ranges stop)
    (range : IndexRange) (last : ranges.getLast? = some range) : range.stop = stop := by
  induction ranges generalizing first with
  | nil => simp at last
  | cons head rest ih =>
    obtain ⟨-, -, tail⟩ := chained
    cases rest with
    | nil =>
      obtain rfl : head = range := Option.some.inj last
      exact tail
    | cons second others => exact ih head.stop tail last

theorem chained_nil (first stop : Nat) (ranges : List IndexRange) (chained : Chained first ranges stop) :
    ranges = [] ↔ first = stop := by
  cases ranges with
  | nil => exact ⟨fun _ => chained, fun _ => rfl⟩
  | cons head rest =>
    have bound := chained_le _ _ _ chained.2.2
    have filled := chained.2.1
    refine ⟨fun absent => absurd absent (List.cons_ne_nil _ _), fun same => ?_⟩
    omega

theorem clamp_workers (length workers : Nat) : clampWorkers length workers = max 1 (min workers (max length 1)) := by
  rw [clampWorkers]
  omega

theorem chunk_rounded_up (length workers : Nat) : chunk length workers = length ⌈/⌉ clampWorkers length workers :=
  (Nat.ceilDiv_eq_add_pred_div length (clampWorkers length workers)).symm

theorem partition_count (length workers : Nat) : (partition length workers).length ≤ clampWorkers length workers := by
  calc (partition length workers).length
    _ ≤ ((List.range (clampWorkers length workers)).map (shard length (chunk length workers))).length :=
      List.length_filter_le _ _
    _ = clampWorkers length workers := by rw [List.length_map, List.length_range]

theorem partition_shard (length workers : Nat) (range : IndexRange) (member : range ∈ partition length workers) :
    ∃ index < clampWorkers length workers, range = shard length (chunk length workers) index := by
  obtain ⟨index, bound, same⟩ := List.mem_map.mp (List.mem_filter.mp member).1
  exact ⟨index, List.mem_range.mp bound, same.symm⟩

theorem shard_length_le (length size index : Nat) : (shard length size index).length ≤ size := by
  dsimp only [shard, IndexRange.length]
  omega

theorem shard_length_whole (length size index : Nat) (before : (shard length size index).stop < length) :
    (shard length size index).length = size := by
  dsimp only [shard, IndexRange.length] at before ⊢
  omega

theorem partition_length_whole (length workers index : Nat) (lower upper : IndexRange)
    (atIndex : (partition length workers)[index]? = some lower)
    (atNext : (partition length workers)[index + 1]? = some upper) : lower.length = chunk length workers := by
  have chained := partition_chained length workers
  have adjacent := chained_next _ _ _ chained index lower upper atIndex atNext
  obtain ⟨-, filled, inside⟩ := chained_mem _ _ _ chained upper (List.mem_of_getElem? atNext)
  obtain ⟨place, -, same⟩ := partition_shard length workers lower (List.mem_of_getElem? atIndex)
  rw [same] at adjacent ⊢
  exact shard_length_whole length _ place (by omega)

theorem chunk_sum_le (length workers index : Nat) (bound : index < clampWorkers length workers) :
    chunk length workers * index + chunk length workers ≤ 2 * length - 1 := by
  have slack : chunk length workers * clampWorkers length workers ≤ length + clampWorkers length workers - 1 :=
    Nat.div_mul_le_self _ _
  have upto : chunk length workers * (index + 1) ≤ chunk length workers * clampWorkers length workers :=
    Nat.mul_le_mul_left _ bound
  rw [Nat.mul_succ] at upto
  have few : clampWorkers length workers ≤ max length 1 := Nat.min_le_right _ _
  cases length with
  | zero =>
    have nothing : chunk 0 workers * clampWorkers 0 workers = 0 := by omega
    omega
  | succ length => omega

theorem evenly_cut (length workers : Nat) (bound : length ≤ 2 ^ 63) :
    let shards := partition length workers
    let count := max 1 (min workers (max length 1))
    let size := length ⌈/⌉ count
    (shards.length ≤ max workers 1 ∧ ∀ range ∈ shards, range.first < range.stop) ∧
    (shards = [] ↔ length = 0) ∧
    (∀ range, shards.head? = some range → range.first = 0) ∧
    (∀ index lower upper, shards[index]? = some lower → shards[index + 1]? = some upper →
      upper.first = lower.stop ∧ lower.length = size) ∧
    (∀ range, shards.getLast? = some range → range.stop = length ∧ range.length ≤ size) ∧
    (chunk length workers = size ∧ clampWorkers length workers = count ∧
      ∀ index < count, size * index < 2 ^ 64 ∧ (shard length size index).first + size < 2 ^ 64) := by
  intro shards count size
  have chained : Chained 0 shards length := partition_chained length workers
  have clamped : clampWorkers length workers = count := clamp_workers length workers
  have rounded : chunk length workers = size := by
    rw [chunk_rounded_up, clamped]
  refine ⟨⟨?_, ?_⟩, ?_, chained_head _ _ _ chained, ?_, ?_, rounded, clamped, ?_⟩
  · have few := partition_count length workers
    have most : clampWorkers length workers ≤ max workers 1 := Nat.min_le_left _ _
    exact Nat.le_trans few most
  · intro range member
    exact (chained_mem _ _ _ chained range member).2.1
  · rw [chained_nil _ _ _ chained, eq_comm]
  · intro index lower upper atIndex atNext
    rw [← rounded]
    exact ⟨chained_next _ _ _ chained index lower upper atIndex atNext,
      partition_length_whole length workers index lower upper atIndex atNext⟩
  · intro range last
    obtain ⟨index, -, same⟩ := partition_shard length workers range (List.mem_of_getLast? last)
    refine ⟨chained_last _ _ _ chained range last, ?_⟩
    rw [same, rounded]
    exact shard_length_le length size index
  · intro index inside
    have sum := chunk_sum_le length workers index (clamped ▸ inside)
    rw [rounded] at sum
    have start : (shard length size index).first ≤ size * index := Nat.min_le_left _ _
    omega

-- With one worker less than there are blocks, each shard has two of them, and the last product is four below the
-- bound.
theorem evenly_cut_crowded :
    let length := 2 ^ 63
    let workers := 2 ^ 63 - 1
    length ≤ 2 ^ 63 ∧ chunk length workers = 2 ∧ partition length workers ≠ [] ∧
      chunk length workers * (workers - 1) < 2 ^ 64 ∧
      ∀ range, (partition length workers).getLast? = some range → range.stop = length := by
  intro length workers
  have bound : length ≤ 2 ^ 63 := Nat.le_refl _
  obtain ⟨-, empty, -, -, last, rounded, -, small⟩ := evenly_cut length workers bound
  have two : length ⌈/⌉ max 1 (min workers (max length 1)) = 2 := by decide
  have product := (small (workers - 1) (by decide)).1
  rw [← rounded] at product
  exact ⟨bound, rounded.trans two, mt empty.mp (by decide), product, fun range found => (last range found).1⟩

end FunctionDiscovery.Shard
