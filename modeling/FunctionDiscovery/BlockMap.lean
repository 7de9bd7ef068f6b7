import FunctionDiscovery.Block
import FunctionDiscovery.Search

set_option autoImplicit false

namespace FunctionDiscovery

structure IndexRange where
  first : Nat
  stop : Nat
deriving DecidableEq, Repr, Inhabited

namespace IndexRange

def length (range : IndexRange) : Nat := range.stop - range.first

def isEmpty (range : IndexRange) : Bool := range.stop ≤ range.first

def contains (range : IndexRange) (index : Nat) : Bool :=
  range.first ≤ index && index < range.stop

end IndexRange

structure BlockMap where
  blocks : Array Block
  filled : ∀ block ∈ blocks.toList, block.start < block.stop
  stacked : blocks.toList.Pairwise fun lower upper => lower.stop ≤ upper.start

namespace BlockMap

inductive Fault where
  | emptyRange (index : Nat) (block : Block)
  | overlap (index : Nat) (lower upper : Block)
deriving DecidableEq, Repr

def Fault.message : Fault → String
  | .emptyRange index block =>
    s!"Block {Numeral.decimal index} at {block.start.hex} has an empty or inverted range " ++
      s!"(end {block.stop.hex})"
  | .overlap index lower upper =>
    s!"Block {Numeral.decimal (index + 1)} at {upper.start.hex} overlaps or precedes block " ++
      s!"{Numeral.decimal index} ending at {lower.stop.hex}"

def firstEmpty? : Nat → List Block → Option (Nat × Block)
  | _, [] => none
  | index, block :: rest =>
    if block.start < block.stop then firstEmpty? (index + 1) rest else some (index, block)

def firstOverlap? : Nat → List Block → Option (Nat × Block × Block)
  | index, lower :: upper :: rest =>
    if lower.stop ≤ upper.start then firstOverlap? (index + 1) (upper :: rest)
    else some (index, lower, upper)
  | _, _ => none

theorem filled_of_firstEmpty? (index : Nat) (blocks : List Block)
    (none_empty : firstEmpty? index blocks = none) :
    ∀ block ∈ blocks, block.start < block.stop := by
  induction blocks generalizing index with
  | nil => simp
  | cons head tail ih =>
    rw [firstEmpty?] at none_empty
    split at none_empty
    · rename_i less
      intro block member
      rcases List.mem_cons.mp member with same | member
      · exact same ▸ less
      · exact ih (index + 1) none_empty block member
    · simp at none_empty

theorem stacked_of_firstOverlap? (index : Nat) (blocks : List Block)
    (filled : ∀ block ∈ blocks, block.start < block.stop)
    (none_overlaps : firstOverlap? index blocks = none) :
    blocks.Pairwise fun lower upper => lower.stop ≤ upper.start := by
  induction blocks generalizing index with
  | nil => exact .nil
  | cons lower tail ih =>
    cases tail with
    | nil => exact List.pairwise_singleton _ _
    | cons upper rest =>
      rw [firstOverlap?] at none_overlaps
      split at none_overlaps
      · rename_i below
        have ordered := ih (index + 1)
          (fun block member => filled block (List.mem_cons_of_mem _ member)) none_overlaps
        refine List.pairwise_cons.mpr ⟨fun block member => ?_, ordered⟩
        rcases List.mem_cons.mp member with same | member
        · exact same ▸ below
        · have less := filled upper (by simp)
          have next := List.rel_of_pairwise_cons ordered member
          exact UInt64.le_trans below (UInt64.le_trans (UInt64.le_of_lt less) next)
      · simp at none_overlaps

def ofArray (blocks : Array Block) : Except Fault BlockMap :=
  match empty : firstEmpty? 0 blocks.toList with
  | some (index, block) => .error (.emptyRange index block)
  | none =>
    match clear : firstOverlap? 0 blocks.toList with
    | some (index, lower, upper) => .error (.overlap index lower upper)
    | none =>
      have filled := filled_of_firstEmpty? 0 blocks.toList empty
      .ok ⟨blocks, filled, stacked_of_firstOverlap? 0 blocks.toList filled clear⟩

def ofList (blocks : List Block) : Except Fault BlockMap := ofArray blocks.toArray

def toList (map : BlockMap) : List Block := map.blocks.toList

def size (map : BlockMap) : Nat := map.blocks.size

def bounds? (map : BlockMap) : Option AddressRange := do
  let first ← map.blocks[0]?
  let last ← map.blocks.back?
  return ⟨first.start, last.stop⟩

def find? (map : BlockMap) (a : Address) : Option Nat :=
  match Search.partitionPoint map.blocks fun block => block.start ≤ a with
  | 0 => none
  | index + 1 =>
    match map.blocks[index]? with
    | some block => if block.contains a then some index else none
    | none => none

def touching? (map : BlockMap) (start stop : Address) : Option IndexRange :=
  if stop ≤ start then none
  else
    match map.find? start, map.find? (stop - 1) with
    | some first, some last => some ⟨first, last + 1⟩
    | _, _ => none

def claimAt (range : IndexRange) (index : Nat) (block : Block) : Block :=
  if range.contains index then block.claim else block

def claim (map : BlockMap) (range : IndexRange) : BlockMap where
  blocks := map.blocks.mapIdx (claimAt range)
  filled := by
    intro block member
    obtain ⟨index, bound, same⟩ := Array.mem_mapIdx.mp (Array.mem_toList_iff.mp member)
    have less := map.filled _ (Array.mem_toList_iff.mpr (Array.getElem_mem bound))
    rw [← same, claimAt]
    split <;> exact less
  stacked := by
    have ordered := List.pairwise_iff_getElem.mp map.stacked
    refine List.pairwise_iff_getElem.mpr fun i j lower upper less => ?_
    have := ordered i j (by simpa using lower) (by simpa using upper) less
    simp only [Array.getElem_toList, Array.getElem_mapIdx, claimAt] at this ⊢
    split <;> split <;> exact this

def claimedCount (map : BlockMap) : Nat := map.blocks.countP Block.isClaimed

def unclaimedIn (map : BlockMap) (range : IndexRange) : Nat :=
  map.toList.zipIdx.countP fun (block, index) => range.contains index && !block.isClaimed

end BlockMap

end FunctionDiscovery
