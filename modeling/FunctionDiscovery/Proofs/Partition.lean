import FunctionDiscovery.Shard
import Mathlib.Algebra.Ring.Nat

set_option autoImplicit false

namespace FunctionDiscovery.Shard

def Chained (first : Nat) : List IndexRange → Nat → Prop
  | [], stop => first = stop
  | range :: rest, stop => range.first = first ∧ first < range.stop ∧ Chained range.stop rest stop

theorem chained_append (first middle stop : Nat) (left right : List IndexRange)
    (before : Chained first left middle) (after : Chained middle right stop) :
    Chained first (left ++ right) stop := by
  induction left generalizing first with
  | nil =>
    obtain rfl : first = middle := before
    exact after
  | cons range rest ih => exact ⟨before.1, before.2.1, ih range.stop before.2.2⟩

theorem chained_le (first stop : Nat) (ranges : List IndexRange) (chained : Chained first ranges stop) :
    first ≤ stop := by
  induction ranges generalizing first with
  | nil => exact Nat.le_of_eq chained
  | cons range rest ih =>
    obtain ⟨-, filled, tail⟩ := chained
    exact Nat.le_trans (Nat.le_of_lt filled) (ih range.stop tail)

theorem chained_mem (first stop : Nat) (ranges : List IndexRange) (chained : Chained first ranges stop)
    (range : IndexRange) (member : range ∈ ranges) :
    first ≤ range.first ∧ range.first < range.stop ∧ range.stop ≤ stop := by
  induction ranges generalizing first with
  | nil => simp at member
  | cons head rest ih =>
    obtain ⟨rfl, filled, tail⟩ := chained
    rcases List.mem_cons.mp member with same | member
    · subst same
      exact ⟨Nat.le_refl _, filled, chained_le _ _ _ tail⟩
    · obtain ⟨after, others⟩ := ih head.stop tail member
      exact ⟨Nat.le_trans (Nat.le_of_lt filled) after, others⟩

theorem chained_ordered (first stop : Nat) (ranges : List IndexRange) (chained : Chained first ranges stop) :
    ranges.Pairwise fun lower upper => lower.stop ≤ upper.first := by
  induction ranges generalizing first with
  | nil => exact .nil
  | cons head rest ih =>
    obtain ⟨-, -, tail⟩ := chained
    refine List.pairwise_cons.mpr ⟨fun range member => ?_, ih head.stop tail⟩
    exact (chained_mem _ _ _ tail range member).1

theorem chained_compare (first stop : Nat) (ranges : List IndexRange) (chained : Chained first ranges stop)
    (a b : IndexRange) (aMember : a ∈ ranges) (bMember : b ∈ ranges) : a.stop ≤ b.stop ∨ b.stop ≤ a.first := by
  induction ranges generalizing first with
  | nil => simp at aMember
  | cons head rest ih =>
    obtain ⟨-, -, tail⟩ := chained
    rcases List.mem_cons.mp aMember with aHead | aRest
    · left
      rcases List.mem_cons.mp bMember with bHead | bRest
      · exact Nat.le_of_eq (congrArg IndexRange.stop (aHead.trans bHead.symm))
      · have later := chained_mem _ _ _ tail b bRest
        subst aHead
        omega
    · rcases List.mem_cons.mp bMember with bHead | bRest
      · right
        exact bHead ▸ (chained_mem _ _ _ tail a aRest).1
      · exact ih head.stop tail aRest bRest

theorem chained_lengths (first stop : Nat) (ranges : List IndexRange) (chained : Chained first ranges stop) :
    first + (ranges.map IndexRange.length).sum = stop := by
  induction ranges generalizing first with
  | nil => exact chained
  | cons head rest ih =>
    obtain ⟨rfl, filled, tail⟩ := chained
    have rest := ih head.stop tail
    rw [List.map_cons, List.sum_cons, IndexRange.length]
    omega

theorem chained_pieces {α : Type} (xs : List α) (first stop : Nat) (ranges : List IndexRange)
    (chained : Chained first ranges stop) :
    ranges.flatMap (fun range => (xs.drop range.first).take range.length) =
      (xs.drop first).take (stop - first) := by
  induction ranges generalizing first with
  | nil =>
    obtain rfl : first = stop := chained
    simp
  | cons head rest ih =>
    obtain ⟨rfl, filled, tail⟩ := chained
    have bound := chained_le _ _ _ tail
    have split : stop - head.first = (head.stop - head.first) + (stop - head.stop) := by omega
    rw [List.flatMap_cons, ih head.stop tail, split, List.take_add, List.drop_drop]
    congr 4
    omega

theorem shard_empty (length size index : Nat) :
    (shard length size index).isEmpty = true ↔ length ≤ size * index ∨ size = 0 := by
  rw [IndexRange.isEmpty, decide_eq_true_iff]
  dsimp only [shard]
  omega

theorem shards_chained (length size count : Nat) :
    Chained 0 (((List.range count).map (shard length size)).filter fun range => !range.isEmpty)
      (min (size * count) length) := by
  -- One more shard either goes on where the last one ends or is empty. An empty one moves no end: it has
  -- no size, or the blocks are used up.
  induction count with
  | zero => simp [Chained]
  | succ count ih =>
    rw [List.range_succ, List.map_append, List.filter_append]
    refine chained_append _ _ _ _ _ ih ?_
    have next : size * (count + 1) = size * count + size := Nat.mul_succ size count
    cases empty : (shard length size count).isEmpty with
    | true =>
      have full := (shard_empty length size count).mp empty
      have dropped : [shard length size count].filter (fun range => !range.isEmpty) = [] := by
        simp [empty]
      rw [List.map_singleton, dropped, Chained]
      omega
    | false =>
      have room := mt (shard_empty length size count).mpr (by simp [empty])
      have kept : [shard length size count].filter (fun range => !range.isEmpty) =
          [shard length size count] := by
        simp [empty]
      rw [List.map_singleton, kept]
      dsimp only [Chained, shard]
      omega

theorem chunk_enough (length workers : Nat) :
    length ≤ chunk length workers * clampWorkers length workers := by
  have positive : 0 < clampWorkers length workers := by
    simp only [clampWorkers]
    omega
  have upper := Nat.lt_mul_div_succ (length + clampWorkers length workers - 1) positive
  rw [Nat.mul_succ] at upper
  rw [chunk, Nat.mul_comm]
  omega

theorem partition_chained (length workers : Nat) : Chained 0 (partition length workers) length := by
  have chained := shards_chained length (chunk length workers) (clampWorkers length workers)
  rwa [Nat.min_eq_right (chunk_enough length workers)] at chained

end FunctionDiscovery.Shard
