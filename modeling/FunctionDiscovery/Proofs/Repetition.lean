import FunctionDiscovery.Proofs.Commit
import FunctionDiscovery.Proofs.Statistics

set_option autoImplicit false

namespace FunctionDiscovery

namespace Search

variable {α : Type} (xs ys : Array α) (test : α → Bool)

theorem bisect_congr (agree : ∀ index : Nat, xs[index]?.map test = ys[index]?.map test) (fuel low high : Nat)
    (inXs : high ≤ xs.size) (inYs : high ≤ ys.size) :
    bisect xs test fuel low high inXs = bisect ys test fuel low high inYs := by
  induction fuel generalizing low high with
  | zero => rfl
  | succ fuel ih =>
    rw [bisect, bisect]
    by_cases less : low < high
    · have inX : (low + high) / 2 < xs.size := by omega
      have inY : (low + high) / 2 < ys.size := by omega
      have middle := agree ((low + high) / 2)
      rw [Array.getElem?_eq_getElem inX, Array.getElem?_eq_getElem inY, Option.map_some, Option.map_some] at middle
      rw [dif_pos less, dif_pos less]
      dsimp only
      rw [Option.some.inj middle, ih, ih]
    · rw [dif_neg less, dif_neg less]

theorem partition_point_congr (sizes : xs.size = ys.size)
    (agree : ∀ index : Nat, xs[index]?.map test = ys[index]?.map test) :
    partitionPoint xs test = partitionPoint ys test := by
  rw [partitionPoint, partitionPoint, bisect_congr xs ys test agree _ _ _ _ (Nat.le_of_eq sizes)]
  simp only [sizes]

end Search

namespace Flags

theorem has_or (flags set bit : UInt32) (apart : set &&& bit = 0) : has (flags ||| set) bit = has flags bit := by
  have cleared : set.toBitVec &&& bit.toBitVec = 0#32 := by
    rw [← UInt32.toBitVec_and, apart]
    rfl
  have kept : (flags ||| set) &&& bit = flags &&& bit := by
    apply UInt32.toBitVec_inj.mp
    rw [UInt32.toBitVec_and, UInt32.toBitVec_or, UInt32.toBitVec_and, BitVec.and_or_distrib_right, cleared,
      BitVec.or_zero]
  rw [has, has, kept]

end Flags

namespace Block

theorem claim_is_call (block : Block) : block.claim.isCall = block.isCall :=
  Flags.has_or block.flags Flags.claimed Flags.call (by decide)

theorem claim_is_indirect (block : Block) : block.claim.isIndirect = block.isIndirect :=
  Flags.has_or block.flags Flags.claimed Flags.indirect (by decide)

end Block

theorem Scope.edge_claim (scope : Scope) (block : Block) : scope.edge block.claim = scope.edge block := by
  rw [edge, edge, Block.claim_is_call, Block.claim_is_indirect]
  rfl

namespace BlockMap

def Alike (one other : BlockMap) : Prop := one.blocks.map Block.claim = other.blocks.map Block.claim

theorem claim_alike (map : BlockMap) (range : IndexRange) : (map.claim range).Alike map := by
  apply Array.ext_getElem?
  intro index
  rw [Array.getElem?_map, Array.getElem?_map, claim_get, Option.map_map]
  refine Option.map_congr fun block _ => ?_
  rw [Function.comp_apply, claimAt]
  cases range.contains index with
  | true => exact Block.claim_claim block
  | false => rfl

section Alike

variable (one other : BlockMap) (alike : one.Alike other)

include alike

theorem alike_read {β : Type} (read : Block → β) (blind : ∀ block, read block.claim = read block) :
    one.blocks.map read = other.blocks.map read := by
  have unread : read ∘ Block.claim = read := funext blind
  have same := congrArg (Array.map read) alike
  rwa [Array.map_map, Array.map_map, unread] at same

theorem alike_get {β : Type} (read : Block → β) (blind : ∀ block, read block.claim = read block) (index : Nat) :
    one.blocks[index]?.map read = other.blocks[index]?.map read := by
  rw [← Array.getElem?_map, ← Array.getElem?_map, alike_read one other alike read blind]

theorem alike_size : one.size = other.size := by
  have sizes := congrArg Array.size alike
  rwa [Array.size_map, Array.size_map] at sizes

theorem alike_spans (range : IndexRange) (a : Address) : one.spans range a = other.spans range a := by
  have seen (map : BlockMap) : map.spans range a =
      ((map.blocks[range.first]?.map Block.start).any (· ≤ a) &&
        (map.blocks[range.stop - 1]?.map Block.stop).any (a < ·)) := by
    rw [spans]
    cases map.blocks[range.first]? <;> cases map.blocks[range.stop - 1]? <;> simp
  rw [seen, seen, alike_get one other alike Block.start (fun _ => rfl), alike_get one other alike Block.stop (fun _ => rfl)]

theorem alike_find (a : Address) : one.find? a = other.find? a := by
  have points := Search.partition_point_congr one.blocks other.blocks (fun block => block.start ≤ a)
    (alike_size one other alike) (alike_get one other alike _ fun _ => rfl)
  rw [find?, find?, points]
  cases Search.partitionPoint other.blocks fun block => block.start ≤ a with
  | zero => rfl
  | succ index =>
    have holds := alike_get one other alike (fun block => block.contains a) (fun _ => rfl) index
    cases oneAt : one.blocks[index]? <;> cases otherAt : other.blocks[index]? <;> simp_all

theorem alike_touching : one.touching? = other.touching? := by
  funext start stop
  simp only [touching?, alike_find one other alike]

end Alike

end BlockMap

namespace Discovery

section Blind

variable (discovery : Discovery) (one other : BlockMap) (alike : one.Alike other)

include alike

theorem edges_alike (shard : IndexRange) :
    (Scan.shardBlocks (discovery.scope one) shard).map (discovery.scope one).edge =
      (Scan.shardBlocks (discovery.scope other) shard).map (discovery.scope other).edge := by
  have edges := congrArg Array.toList
    (BlockMap.alike_read one other alike (discovery.scope one).edge (Scope.edge_claim (discovery.scope one)))
  rw [Array.toList_map, Array.toList_map] at edges
  rw [Scan.shardBlocks, Scan.shardBlocks, List.map_take, List.map_take, List.map_drop, List.map_drop]
  exact congrArg (fun edges => (edges.drop shard.first).take shard.length) edges

theorem listed_alike (shard : IndexRange) :
    (discovery.scope one).listed shard = (discovery.scope other).listed shard := by
  rw [Scope.listed_eq, Scope.listed_eq]
  refine List.filter_congr fun range _ => ?_
  exact BlockMap.alike_spans one other alike shard range.start

theorem span_alike : Candidate.span? one = Candidate.span? other := by
  funext c
  rw [Candidate.span?, Candidate.span?, BlockMap.alike_touching one other alike]

theorem whole_alike (shard : IndexRange) :
    Scan.whole (discovery.scope one) shard = Scan.whole (discovery.scope other) shard := by
  have span := span_alike one other alike
  have resolve : Candidate.resolve one = Candidate.resolve other := by
    funext c
    rw [Candidate.resolve, Candidate.resolve, span]
  have finish : Scan.finish (discovery.scope one) = Scan.finish (discovery.scope other) := by
    funext scan
    simp only [Scan.finish, Candidate.claims, Candidate.misses, scope, span, resolve]
  rw [Scan.whole, Scan.whole, finish, edges_alike discovery one other alike, listed_alike discovery one other alike]

theorem scans_alike :
    (discovery.shards one).map (Scan.whole (discovery.scope one)) =
      (discovery.shards other).map (Scan.whole (discovery.scope other)) := by
  rw [shards, shards, BlockMap.alike_size one other alike]
  exact List.map_congr_left fun shard _ => whole_alike discovery one other alike shard

-- The blocks themselves show only in how many of them were not claimed before.
theorem finished_alike :
    (discovery.finished one).report.functions = (discovery.finished other).report.functions ∧
    (discovery.finished one).report.tentative = (discovery.finished other).report.tentative ∧
    (discovery.finished one).table = (discovery.finished other).table ∧
    (discovery.finished one).report.stats = { (discovery.finished other).report.stats with
      blocksClaimed := (discovery.finished one).report.stats.blocksClaimed } := by
  have count : (discovery.shards one).length = (discovery.shards other).length := by
    rw [shards, shards, BlockMap.alike_size one other alike]
  simp only [finished, conclude, scans_alike discovery one other alike, count, and_self]

end Blind

theorem claim_all_alike (blocks : BlockMap) (ranges : List IndexRange) :
    BlockMap.Alike (claimAll blocks ranges).1 blocks := by
  induction ranges generalizing blocks with
  | nil => exact rfl
  | cons range rest ih =>
    rw [claim_all_cons]
    exact Eq.trans (ih (blocks.claim range)) (blocks.claim_alike range)

section Again

variable (discovery : Discovery) (blocks : BlockMap)

theorem finished_keeps_alike : BlockMap.Alike (discovery.finished blocks).blocks blocks :=
  claim_all_alike blocks (discovery.claims blocks)

theorem finished_again_blocks :
    (discovery.finished (discovery.finished blocks).blocks).blocks = (discovery.finished blocks).blocks := by
  have functions := (finished_alike discovery _ blocks (finished_keeps_alike discovery blocks)).1
  apply BlockMap.eq_of_blocks
  intro index
  rw [finished_claims, functions, finished_claims, Option.map_map]
  refine Option.map_congr fun block _ => ?_
  rw [Function.comp_apply]
  split
  · exact Block.claim_claim block
  · rfl

theorem finished_again_claims :
    (discovery.finished (discovery.finished blocks).blocks).report.stats.blocksClaimed = 0 := by
  have count := finished_blocks_claimed discovery (discovery.finished blocks).blocks
  rw [finished_again_blocks] at count
  omega

end Again

theorem repeated_runs_agree {σ τ : Type} (discovery : Discovery) (watch : Watch σ) (again : Watch τ) (blocks : BlockMap)
    (before earlier : FunctionTable) (state : σ) (next : τ)
    (going : (discovery.run watch blocks before state).1.report.cancelled = false) :
    let first := (discovery.run watch blocks before state).1
    (∀ other : BlockMap, other.Alike blocks →
      let second := (discovery.run again other earlier next).1
      second.report.cancelled = false →
        second.report.functions = first.report.functions ∧ second.report.tentative = first.report.tentative ∧
        second.table.records = first.table.records ∧
        second.report.stats = { first.report.stats with blocksClaimed := second.report.stats.blocksClaimed }) ∧
    (let second := (discovery.run again first.blocks earlier next).1
     second.report.cancelled = false →
        second.report.functions = first.report.functions ∧ second.report.tentative = first.report.tentative ∧
        second.table.records = first.table.records ∧ second.report.stats.blocksClaimed = 0 ∧
        second.blocks = first.blocks) := by
  intro first
  have ended : first = discovery.finished blocks := run_uncancelled discovery watch blocks before state going
  rw [ended]
  constructor
  · intro other alike second goingOn
    have secondEnded : second = discovery.finished other :=
      run_uncancelled discovery again other earlier next goingOn
    rw [secondEnded]
    obtain ⟨functions, tentative, table, stats⟩ := finished_alike discovery other blocks alike
    exact ⟨functions, tentative, congrArg FunctionTable.records table, stats⟩
  · intro second goingOn
    have secondEnded : second = discovery.finished (discovery.finished blocks).blocks :=
      run_uncancelled discovery again (discovery.finished blocks).blocks earlier next goingOn
    rw [secondEnded]
    obtain ⟨functions, tentative, table, -⟩ := finished_alike discovery _ blocks (finished_keeps_alike discovery blocks)
    exact ⟨functions, tentative, congrArg FunctionTable.records table, finished_again_claims discovery blocks,
      finished_again_blocks discovery blocks⟩

theorem repeated_runs_agree_claimed :
    let discovery := oneWorker 0x400 [⟨0xc10, 0xc20, 0⟩, ⟨0xc00, 0xc00, 0⟩]
    let first := (discovery.run Watch.never oneBlock {} ()).1
    first.report.cancelled = false ∧ BlockMap.Alike (oneBlock.claim ⟨0, 1⟩) oneBlock ∧
      (let second := (discovery.run Watch.never (oneBlock.claim ⟨0, 1⟩) ⟨[⟨0x9000, 0x900f, false⟩]⟩ ()).1
       second.report.functions = first.report.functions ∧ second.table.records = first.table.records) ∧
      (let left := (discovery.run Watch.never oneBlock {} ()).1.blocks
       let second := (discovery.run Watch.never left ⟨[⟨0x9000, 0x900f, false⟩]⟩ ()).1
       second.report.stats.blocksClaimed = 0 ∧ second.blocks = left) := by
  intro discovery first
  have going : first.report.cancelled = false := never_cancelled discovery oneBlock {}
  have alike := oneBlock.claim_alike ⟨0, 1⟩
  obtain ⟨agree, repeated⟩ := repeated_runs_agree discovery Watch.never Watch.never oneBlock {}
    ⟨[⟨0x9000, 0x900f, false⟩]⟩ () () going
  obtain ⟨functions, -, records, -⟩ := agree (oneBlock.claim ⟨0, 1⟩) alike (never_cancelled discovery _ _)
  obtain ⟨-, -, -, claimed, kept⟩ := repeated (never_cancelled discovery _ _)
  exact ⟨going, alike, ⟨functions, records⟩, claimed, kept⟩

end Discovery

end FunctionDiscovery
