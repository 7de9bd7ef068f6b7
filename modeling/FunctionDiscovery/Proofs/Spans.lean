import FunctionDiscovery.Proofs.Partition

set_option autoImplicit false

namespace FunctionDiscovery.BlockMap

def spans (map : BlockMap) (range : IndexRange) (a : Address) : Bool :=
  match map.blocks[range.first]?, map.blocks[range.stop - 1]? with
  | some first, some last => first.start ≤ a && a < last.stop
  | _, _ => false

def gapAfter (map : BlockMap) (index : Nat) (a : Address) : Bool :=
  match map.blocks[index]?, map.blocks[index + 1]? with
  | some lower, some upper => lower.stop ≤ a && a < upper.start
  | _, _ => false

theorem spans_iff (map : BlockMap) (range : IndexRange) (a : Address) :
    map.spans range a = true ↔ ∃ first last, map.blocks[range.first]? = some first ∧
      map.blocks[range.stop - 1]? = some last ∧ first.start ≤ a ∧ a < last.stop := by
  rw [spans]
  cases map.blocks[range.first]? with
  | none => simp
  | some first => cases map.blocks[range.stop - 1]? <;> simp

theorem gap_after_iff (map : BlockMap) (index : Nat) (a : Address) :
    map.gapAfter index a = true ↔ ∃ lower upper, map.blocks[index]? = some lower ∧
      map.blocks[index + 1]? = some upper ∧ lower.stop ≤ a ∧ a < upper.start := by
  rw [gapAfter]
  cases map.blocks[index]? with
  | none => simp
  | some lower => cases map.blocks[index + 1]? <;> simp

theorem block_filled (map : BlockMap) (index : Nat) (block : Block)
    (access : map.blocks[index]? = some block) : block.start < block.stop :=
  map.filled block (Array.mem_toList_iff.mpr (Array.mem_of_getElem? access))

theorem blocks_ordered (map : BlockMap) (i j : Nat) (lower upper : Block) (less : i < j)
    (lowerAt : map.blocks[i]? = some lower) (upperAt : map.blocks[j]? = some upper) :
    lower.stop ≤ upper.start := by
  obtain ⟨iBound, rfl⟩ := Array.getElem?_eq_some_iff.mp lowerAt
  obtain ⟨jBound, rfl⟩ := Array.getElem?_eq_some_iff.mp upperAt
  exact List.pairwise_iff_getElem.mp map.stacked i j iBound jBound less

theorem starts_ascend (map : BlockMap) (i j : Nat) (lower upper : Block) (atMost : i ≤ j)
    (lowerAt : map.blocks[i]? = some lower) (upperAt : map.blocks[j]? = some upper) :
    lower.start ≤ upper.start := by
  rcases Nat.lt_or_eq_of_le atMost with less | same
  · have below := blocks_ordered map i j lower upper less lowerAt upperAt
    exact UInt64.le_trans (UInt64.le_of_lt (block_filled map i lower lowerAt)) below
  · subst same
    rw [lowerAt] at upperAt
    exact Option.some.inj upperAt ▸ UInt64.le_refl _

theorem stops_ascend (map : BlockMap) (i j : Nat) (lower upper : Block) (atMost : i ≤ j)
    (lowerAt : map.blocks[i]? = some lower) (upperAt : map.blocks[j]? = some upper) :
    lower.stop ≤ upper.stop := by
  rcases Nat.lt_or_eq_of_le atMost with less | same
  · have below := blocks_ordered map i j lower upper less lowerAt upperAt
    exact UInt64.le_trans below (UInt64.le_of_lt (block_filled map j upper upperAt))
  · subst same
    rw [lowerAt] at upperAt
    exact Option.some.inj upperAt ▸ UInt64.le_refl _

theorem block_at (map : BlockMap) (index : Nat) (bound : index < map.size) :
    ∃ block, map.blocks[index]? = some block :=
  ⟨_, Array.getElem?_eq_getElem bound⟩

theorem spans_ordered (map : BlockMap) (lower upper : IndexRange) (a b : Address)
    (filled : lower.first < lower.stop) (ordered : lower.stop ≤ upper.first)
    (inLower : map.spans lower a = true) (inUpper : map.spans upper b = true) : a < b := by
  obtain ⟨_, last, _, lastAt, _, below⟩ := (spans_iff map lower a).mp inLower
  obtain ⟨first, _, firstAt, _, above, _⟩ := (spans_iff map upper b).mp inUpper
  have separate := blocks_ordered map _ _ last first (by omega) lastAt firstAt
  exact UInt64.lt_of_lt_of_le below (UInt64.le_trans separate above)

theorem spans_disjoint (map : BlockMap) (lower upper : IndexRange) (a : Address)
    (filled : lower.first < lower.stop) (ordered : lower.stop ≤ upper.first)
    (inLower : map.spans lower a = true) : map.spans upper a = false := by
  rw [Bool.eq_false_iff]
  intro inUpper
  exact UInt64.lt_irrefl a (spans_ordered map lower upper a a filled ordered inLower inUpper)

theorem gap_not_spanned (map : BlockMap) (cut range : IndexRange) (a : Address)
    (filled : range.first < range.stop) (ordered : range.stop ≤ cut.stop ∨ cut.stop ≤ range.first)
    (cutFilled : cut.first < cut.stop) (gap : map.gapAfter (cut.stop - 1) a = true) :
    map.spans range a = false := by
  rw [Bool.eq_false_iff]
  intro inside
  obtain ⟨lower, upper, lowerAt, upperAt, above, below⟩ := (gap_after_iff map _ a).mp gap
  obtain ⟨first, last, firstAt, lastAt, start, stop⟩ := (spans_iff map range a).mp inside
  rcases ordered with before | after
  · have atMost := stops_ascend map _ _ last lower (by omega) lastAt lowerAt
    exact UInt64.lt_irrefl a (UInt64.lt_of_lt_of_le stop (UInt64.le_trans atMost above))
  · have atMost := starts_ascend map _ _ upper first (by omega) upperAt firstAt
    exact UInt64.lt_irrefl a (UInt64.lt_of_lt_of_le below (UInt64.le_trans atMost start))

theorem spans_widen (map : BlockMap) (range : IndexRange) (first stop : Nat) (a : Address)
    (filled : range.first < range.stop) (above : first ≤ range.first) (below : range.stop ≤ stop)
    (bound : stop ≤ map.size) (inside : map.spans range a = true) : map.spans ⟨first, stop⟩ a = true := by
  obtain ⟨lower, upper, lowerAt, upperAt, start, before⟩ := (spans_iff map range a).mp inside
  obtain ⟨firstBlock, firstAt⟩ := block_at map first (by omega)
  obtain ⟨lastBlock, lastAt⟩ := block_at map (stop - 1) (by omega)
  have starts := starts_ascend map _ _ firstBlock lower above firstAt lowerAt
  have stops := stops_ascend map _ _ upper lastBlock (by omega) upperAt lastAt
  exact (spans_iff map _ a).mpr ⟨firstBlock, lastBlock, firstAt, lastAt,
    UInt64.le_trans starts start, UInt64.lt_of_lt_of_le before stops⟩

theorem chained_spans (map : BlockMap) (first stop : Nat) (ranges : List IndexRange) (a : Address)
    (chained : Shard.Chained first ranges stop) (filled : first < stop) (bound : stop ≤ map.size)
    (inside : map.spans ⟨first, stop⟩ a = true) :
    (∃ range ∈ ranges, map.spans range a = true) ∨
      ∃ range ∈ ranges, map.gapAfter (range.stop - 1) a = true := by
  -- Along the chain: the address lies in the first range, in the gap after it, or in what the others span.
  induction ranges generalizing first with
  | nil => exact absurd chained (Nat.ne_of_lt filled)
  | cons head rest ih =>
    obtain ⟨rfl, headFilled, tail⟩ := chained
    obtain ⟨firstBlock, lastBlock, firstAt, lastAt, above, below⟩ := (spans_iff map _ a).mp inside
    have headBound := Shard.chained_le _ _ _ tail
    obtain ⟨lower, lowerAt⟩ := block_at map (head.stop - 1) (by omega)
    by_cases inHead : a < lower.stop
    · left
      exact ⟨head, List.mem_cons_self, (spans_iff map head a).mpr
        ⟨firstBlock, lower, firstAt, lowerAt, above, inHead⟩⟩
    · have beyond : lower.stop ≤ a := UInt64.not_lt.mp inHead
      have more : head.stop < stop := by
        refine Nat.lt_of_le_of_ne headBound fun same => inHead ?_
        rw [same, lastAt] at lowerAt
        exact Option.some.inj lowerAt ▸ below
      obtain ⟨upper, upperAt⟩ := block_at map head.stop (by omega)
      by_cases inGap : a < upper.start
      · right
        refine ⟨head, List.mem_cons_self, (gap_after_iff map _ a).mpr ⟨lower, upper, lowerAt, ?_, beyond, inGap⟩⟩
        rwa [Nat.sub_add_cancel (by omega)]
      · have rest := ih head.stop tail more ((spans_iff map _ a).mpr
          ⟨upper, lastBlock, upperAt, lastAt, UInt64.not_lt.mp inGap, below⟩)
        rcases rest with ⟨range, member, found⟩ | ⟨range, member, found⟩
        · exact .inl ⟨range, List.mem_cons_of_mem _ member, found⟩
        · exact .inr ⟨range, List.mem_cons_of_mem _ member, found⟩

end FunctionDiscovery.BlockMap
