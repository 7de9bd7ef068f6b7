import FunctionDiscovery.Proofs.Spans

set_option autoImplicit false

namespace FunctionDiscovery

namespace Search

variable {α : Type} (xs : Array α) (test : α → Bool)

def Falling : Prop :=
  ∀ (i j : Nat) (x y : α), i ≤ j → xs[i]? = some x → xs[j]? = some y → test y = true → test x = true

def Separates (point : Nat) : Prop :=
  point ≤ xs.size ∧ ∀ (i : Nat) (x : α), xs[i]? = some x → (test x = true ↔ i < point)

theorem separates_of_sides (point : Nat) (bound : point ≤ xs.size)
    (before : ∀ (i : Nat) (x : α), i < point → xs[i]? = some x → test x = true)
    (after : ∀ (i : Nat) (x : α), point ≤ i → xs[i]? = some x → test x = false) : Separates xs test point := by
  refine ⟨bound, fun i x access => ⟨fun passes => ?_, fun less => before i x less access⟩⟩
  by_contra notLess
  have fails := after i x (Nat.not_lt.mp notLess) access
  simp [passes] at fails

-- The range that is searched always has elements that pass before it and elements that fail after it.
theorem bisect_separates (falling : Falling xs test) (fuel low high : Nat) (bound : high ≤ xs.size)
    (ordered : low ≤ high) (enough : high - low ≤ fuel)
    (before : ∀ (i : Nat) (x : α), i < low → xs[i]? = some x → test x = true)
    (after : ∀ (i : Nat) (x : α), high ≤ i → xs[i]? = some x → test x = false) :
    Separates xs test (bisect xs test fuel low high bound) := by
  induction fuel generalizing low high with
  | zero =>
    obtain rfl : low = high := by omega
    exact separates_of_sides xs test low bound before after
  | succ fuel ih =>
    rw [bisect]
    by_cases less : low < high
    · have inside : (low + high) / 2 < xs.size := by omega
      have middle : xs[(low + high) / 2]? = some xs[(low + high) / 2] := Array.getElem?_eq_getElem inside
      rw [dif_pos less]
      by_cases passes : test xs[(low + high) / 2] = true
      · simp only [if_pos passes]
        refine ih _ _ bound (by omega) (by omega) (fun i x inLow access => ?_) after
        exact falling i _ x _ (by omega) access middle passes
      · simp only [if_neg passes]
        refine ih _ _ (by omega) (by omega) (by omega) before (fun i x inHigh access => ?_)
        rw [Bool.eq_false_iff]
        exact fun later => passes (falling _ i _ x inHigh middle access later)
    · obtain rfl : low = high := by omega
      rw [dif_neg less]
      exact separates_of_sides xs test low bound before after

theorem partition_point_separates (falling : Falling xs test) : Separates xs test (partitionPoint xs test) := by
  refine bisect_separates xs test falling _ 0 xs.size _ (Nat.zero_le _) (Nat.le_refl _) ?_ ?_
  · exact fun i x below => absurd below (Nat.not_lt_zero i)
  · intro i x beyond access
    rw [Array.getElem?_eq_none beyond] at access
    simp at access

end Search

theorem Block.contains_iff (block : Block) (a : Address) :
    block.contains a = true ↔ block.start ≤ a ∧ a < block.stop := by
  simp [contains]

namespace BlockMap

variable (map : BlockMap)

theorem starts_falling (a : Address) : Search.Falling map.blocks fun block => block.start ≤ a := by
  intro i j lower upper atMost lowerAt upperAt passes
  have starts := starts_ascend map i j lower upper atMost lowerAt upperAt
  exact decide_eq_true (UInt64.le_trans starts (of_decide_eq_true passes))

theorem find_sound (a : Address) (index : Nat) (found : map.find? a = some index) :
    ∃ block, map.blocks[index]? = some block ∧ block.contains a = true := by
  rw [find?] at found
  split at found
  · simp at found
  · rename_i last _
    split at found
    · rename_i block access
      by_cases inside : block.contains a = true
      · rw [if_pos inside] at found
        exact ⟨block, Option.some.inj found ▸ access, inside⟩
      · simp [inside] at found
    · simp at found

theorem find_complete (a : Address) (index : Nat) (block : Block) (access : map.blocks[index]? = some block)
    (inside : block.contains a = true) : map.find? a = some index := by
  obtain ⟨bound, separates⟩ := Search.partition_point_separates map.blocks _ (starts_falling map a)
  have passed := (separates index block access).mp (decide_eq_true ((block.contains_iff a).mp inside).1)
  generalize pointEq : (Search.partitionPoint map.blocks fun block => decide (block.start ≤ a)) = point at *
  -- A later block that starts at or before the address would start inside this one.
  have last : point = index + 1 := by
    apply Nat.le_antisymm _ passed
    by_contra later
    obtain ⟨next, nextAt⟩ := block_at map (index + 1) (by simp only [size]; omega)
    have nextStart := of_decide_eq_true ((separates (index + 1) next nextAt).mpr (by omega))
    have apart := blocks_ordered map index (index + 1) block next (Nat.lt_succ_self _) access nextAt
    exact UInt64.lt_irrefl a
      (UInt64.lt_of_lt_of_le ((block.contains_iff a).mp inside).2 (UInt64.le_trans apart nextStart))
  rw [find?, pointEq, last]
  simp only [access, if_pos inside]

theorem find_iff (a : Address) (index : Nat) :
    map.find? a = some index ↔ ∃ block, map.blocks[index]? = some block ∧ block.contains a = true := by
  constructor
  · exact find_sound map a index
  · rintro ⟨block, access, inside⟩
    exact find_complete map a index block access inside

theorem find_none_iff (a : Address) : map.find? a = none ↔ ∀ block ∈ map.toList, block.contains a = false := by
  simp only [Option.eq_none_iff_forall_ne_some, ne_eq, find_iff]
  constructor
  · intro absent block member
    obtain ⟨index, access⟩ := List.mem_iff_getElem?.mp member
    rw [Bool.eq_false_iff]
    exact fun inside => absent index ⟨block, by simpa [toList] using access, inside⟩
  · rintro absent index ⟨block, access, inside⟩
    have outside := absent block (Array.mem_toList_iff.mpr (Array.mem_of_getElem? access))
    simp [inside] at outside

end BlockMap

end FunctionDiscovery
