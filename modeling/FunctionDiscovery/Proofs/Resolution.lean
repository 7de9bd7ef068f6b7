import FunctionDiscovery.Proofs.BlockLookup
import FunctionDiscovery.Proofs.Commit

set_option autoImplicit false

namespace FunctionDiscovery

def Block.Meets (block : Block) (start stop : Address) : Prop := ∃ a, block.contains a = true ∧ start ≤ a ∧ a < stop

namespace BlockMap

variable (map : BlockMap) (start stop : Address)

theorem touching_none_iff :
    map.touching? start stop = none ↔ stop ≤ start ∨ (∀ block ∈ map.toList, block.contains start = false) ∨
      ∀ block ∈ map.toList, block.contains (stop - 1) = false := by
  rw [← find_none_iff, ← find_none_iff, touching?]
  by_cases empty : stop ≤ start
  · simp [empty]
  · rw [if_neg empty]
    cases map.find? start with
    | none => simp
    | some first => cases map.find? (stop - 1) <;> simp [empty]

theorem touching_cases (range : IndexRange) (found : map.touching? start stop = some range) :
    start < stop ∧ ∃ last, range.stop = last + 1 ∧ map.find? start = some range.first ∧ map.find? (stop - 1) = some last := by
  rw [touching?] at found
  by_cases empty : stop ≤ start
  · simp [empty] at found
  · rw [if_neg empty] at found
    cases atStart : map.find? start with
    | none => simp [atStart] at found
    | some first =>
      cases atEnd : map.find? (stop - 1) with
      | none => simp [atStart, atEnd] at found
      | some last =>
        simp only [atStart, atEnd, Option.some.injEq] at found
        exact ⟨UInt64.not_le.mp empty, last, found ▸ ⟨rfl, rfl, rfl⟩⟩

-- What lies before the block of the first address ends before the function, what lies after that of the last starts
-- after it.
theorem meets_within (first last i : Nat) (lower upper block : Block) (filled : start < stop)
    (lowerAt : map.blocks[first]? = some lower) (upperAt : map.blocks[last]? = some upper)
    (access : map.blocks[i]? = some block) (inLower : lower.contains start = true)
    (inUpper : upper.contains (stop - 1) = true) (meets : block.Meets start stop) : first ≤ i ∧ i ≤ last := by
  obtain ⟨a, inside, above, below⟩ := meets
  obtain ⟨blockStart, blockStop⟩ := (block.contains_iff a).mp inside
  obtain ⟨lowerStart, -⟩ := (lower.contains_iff start).mp inLower
  obtain ⟨-, upperStop⟩ := (upper.contains_iff (stop - 1)).mp inUpper
  have atMost := (last_reaches start stop a filled).mpr below
  constructor
  · by_contra before
    have apart := blocks_ordered map i first block lower (by omega) access lowerAt
    have beyond := UInt64.le_trans apart (UInt64.le_trans lowerStart above)
    exact UInt64.lt_irrefl a (UInt64.lt_of_lt_of_le blockStop beyond)
  · by_contra after
    have apart := blocks_ordered map last i upper block (by omega) upperAt access
    have beyond := UInt64.le_trans apart (UInt64.le_trans blockStart atMost)
    exact UInt64.lt_irrefl _ (UInt64.lt_of_lt_of_le upperStop beyond)

-- The first block has the first address of the function, and every later one starts inside it.
theorem within_meets (first last i : Nat) (lower upper block : Block) (filled : start < stop)
    (lowerAt : map.blocks[first]? = some lower) (upperAt : map.blocks[last]? = some upper)
    (access : map.blocks[i]? = some block) (inLower : lower.contains start = true)
    (inUpper : upper.contains (stop - 1) = true) (above : first ≤ i) (below : i ≤ last) : block.Meets start stop := by
  by_cases same : first = i
  · subst same
    rw [lowerAt] at access
    exact ⟨start, Option.some.inj access ▸ inLower, UInt64.le_refl _, filled⟩
  · have apart := blocks_ordered map first i lower block (by omega) lowerAt access
    have starts := starts_ascend map i last block upper below access upperAt
    have reached := UInt64.le_trans starts ((upper.contains_iff (stop - 1)).mp inUpper).1
    have beyond := UInt64.lt_of_lt_of_le ((lower.contains_iff start).mp inLower).2 apart
    exact ⟨block.start, (block.contains_iff _).mpr ⟨UInt64.le_refl _, block_filled map i block access⟩,
      UInt64.le_of_lt beyond, (last_reaches start stop _ filled).mp reached⟩

theorem touching_some (range : IndexRange) (found : map.touching? start stop = some range) :
    range.first < range.stop ∧ range.stop ≤ map.size ∧
      ∀ (i : Nat) (block : Block), map.blocks[i]? = some block →
        (range.first ≤ i ∧ i < range.stop ↔ block.Meets start stop) := by
  obtain ⟨filled, last, ends, atStart, atEnd⟩ := touching_cases map start stop range found
  obtain ⟨lower, lowerAt, inLower⟩ := find_sound map start range.first atStart
  obtain ⟨upper, upperAt, inUpper⟩ := find_sound map (stop - 1) last atEnd
  have inMap : last < map.size := (Array.getElem?_eq_some_iff.mp upperAt).1
  have lowerMeets : lower.Meets start stop := ⟨start, inLower, UInt64.le_refl _, filled⟩
  have ordered := (meets_within map start stop range.first last range.first lower upper lower filled lowerAt upperAt
    lowerAt inLower inUpper lowerMeets).2
  rw [ends]
  refine ⟨by omega, by omega, fun i block access => ⟨fun ⟨above, below⟩ => ?_, fun meets => ?_⟩⟩
  · exact within_meets map start stop range.first last i lower upper block filled lowerAt upperAt access inLower inUpper
      above (by omega)
  · obtain ⟨above, below⟩ := meets_within map start stop range.first last i lower upper block filled lowerAt upperAt
      access inLower inUpper meets
    exact ⟨above, by omega⟩

end BlockMap

namespace Candidate

variable (map : BlockMap)

theorem resolve_fresh (c : Candidate) (fresh : c.blocks = none) : c.resolve map = { c with blocks := c.span? map } := by
  rw [resolve]
  cases c.span? map with
  | none =>
    change c = { c with blocks := none }
    rw [← fresh]
  | some range => rfl

theorem claims_resolved (candidates : List Candidate) (fresh : ∀ c ∈ candidates, c.blocks = none) :
    claims map candidates = (candidates.map (resolve map)).filterMap blocks := by
  rw [claims, List.filterMap_map]
  refine List.filterMap_congr fun c member => ?_
  rw [Function.comp_apply, resolve_fresh map c (fresh c member)]

theorem misses_resolved (candidates : List Candidate) (fresh : ∀ c ∈ candidates, c.blocks = none) :
    misses map candidates = (candidates.map (resolve map)).countP fun c => c.stop.isSome && c.blocks.isNone := by
  rw [misses, List.countP_map]
  refine List.countP_congr fun c member => ?_
  rw [Function.comp_apply, resolve_fresh map c (fresh c member)]

theorem claims_misses (candidates : List Candidate) :
    (claims map candidates).length + misses map candidates = candidates.countP fun c => c.stop.isSome := by
  induction candidates with
  | nil => rfl
  | cons c rest ih =>
    rw [claims, misses] at ih ⊢
    cases ends : c.stop with
    | none =>
      have unknown : c.span? map = none := by rw [span?, ends, Option.bind_none]
      simpa [ends, unknown] using ih
    | some stop =>
      cases spans : c.span? map with
      | none => simp [ends, spans, ← ih, Nat.add_assoc]
      | some range =>
        rw [List.filterMap_cons_some spans]
        simp [ends, spans, ← ih, Nat.add_right_comm]

theorem resolved_exactly :
    (∀ start stop : Address,
      (map.touching? start stop = none ↔ stop ≤ start ∨ (∀ block ∈ map.toList, block.contains start = false) ∨
        ∀ block ∈ map.toList, block.contains (stop - 1) = false) ∧
      ∀ range, map.touching? start stop = some range →
        range.first < range.stop ∧ range.stop ≤ map.size ∧
          ∀ (i : Nat) (block : Block), map.blocks[i]? = some block →
            (range.first ≤ i ∧ i < range.stop ↔ block.Meets start stop)) ∧
    ∀ candidates : List Candidate, (∀ c ∈ candidates, c.blocks = none) →
      let resolved := candidates.map (resolve map)
      resolved.length = candidates.length ∧
      (∀ (i : Nat) (c : Candidate), candidates[i]? = some c → ∃ r, resolved[i]? = some r ∧
        r.start = c.start ∧ r.stop = c.stop ∧ (c.stop = none → r = c) ∧
        ∀ stop, c.stop = some stop → r.blocks = map.touching? c.start stop) ∧
      claims map candidates = resolved.filterMap blocks ∧
      misses map candidates = (resolved.countP fun r => r.stop.isSome && r.blocks.isNone) ∧
      (claims map candidates).length + misses map candidates = candidates.countP fun c => c.stop.isSome := by
  refine ⟨fun start stop => ⟨map.touching_none_iff start stop, map.touching_some start stop⟩, ?_⟩
  intro candidates fresh resolved
  refine ⟨List.length_map _, ?_, claims_resolved map candidates fresh, misses_resolved map candidates fresh,
    claims_misses map candidates⟩
  intro i c access
  have located := resolve_fresh map c (fresh c (List.mem_of_getElem? access))
  refine ⟨c.resolve map, ?_, resolve_start map c, resolve_stop map c, fun unknown => ?_, fun stop ends => ?_⟩
  · rw [List.getElem?_map, access, Option.map_some]
  · rw [resolve, span?, unknown, Option.bind_none]
  · rw [located, span?, ends, Option.bind_some]

def gapped : BlockMap :=
  ⟨#[⟨0x1000, 0x1010, 0, 0⟩, ⟨0x1020, 0x1030, 0, 0⟩, ⟨0x1030, 0x1040, 0, 0⟩], by decide, by decide⟩

theorem resolved_exactly_gapped :
    let candidates : List Candidate :=
      [⟨0x1008, some 0x1021, none⟩, ⟨0x1018, some 0x1021, none⟩, ⟨0x1020, some 0x1020, none⟩, ⟨0x1030, none, none⟩]
    let resolved := candidates.map (resolve gapped)
    (∀ c ∈ candidates, c.blocks = none) ∧ gapped.touching? 0x1008 0x1021 = some ⟨0, 2⟩ ∧
      claims gapped candidates = resolved.filterMap blocks ∧ claims gapped candidates = [⟨0, 2⟩] ∧
      (claims gapped candidates).length + misses gapped candidates = 3 := by
  intro candidates resolved
  have fresh : ∀ c ∈ candidates, c.blocks = none := by decide
  obtain ⟨-, -, found, -, total⟩ := (resolved_exactly gapped).2 candidates fresh
  exact ⟨fresh, by decide, found, by decide, total⟩

end Candidate

end FunctionDiscovery
