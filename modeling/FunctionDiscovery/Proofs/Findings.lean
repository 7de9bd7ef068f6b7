import FunctionDiscovery.Proofs.Claiming
import FunctionDiscovery.Proofs.Scanning

set_option autoImplicit false

namespace FunctionDiscovery.Discovery

def Listed (discovery : Discovery) (blocks : BlockMap) (range : AddressRange) : Prop :=
  (∃ base, discovery.base = some base ∧ ∃ record ∈ discovery.records, record.LiesAt base range) ∧
    ∃ shard ∈ Shard.partition blocks.size discovery.workers, blocks.spans shard range.start = true

def Entered (discovery : Discovery) (blocks : BlockMap) (d : Address) : Prop :=
  discovery.bounds.contains d = true ∧ ∃ block ∈ blocks.toList, (discovery.scope blocks).LeadsTo block d

def finished (discovery : Discovery) (blocks : BlockMap) : Outcome :=
  let shards := discovery.shards blocks
  let result := conclude blocks shards.length (shards.map (Scan.whole (discovery.scope blocks)))
  ⟨result.1, result.2.1, result.2.2, 1, ⟨shards.length, shards.length⟩⟩

def interrupted (discovery : Discovery) (blocks : BlockMap) (table : FunctionTable) (scans : List Scan) : Outcome :=
  let shards := discovery.shards blocks
  let stats := { scan := mergedStats scans, shards := shards.length }
  ⟨{ stats, cancelled := true }, blocks, table, 0, ⟨shards.length, scans.length⟩⟩

section Endings

variable {σ : Type} (discovery : Discovery) (watch : Watch σ) (blocks : BlockMap) (table : FunctionTable) (state : σ)

def scanned : List Scan × σ :=
  Scan.runAll (discovery.scope blocks) watch (discovery.shards blocks) state

theorem run_scan_stopped (stopped : (discovery.scanned watch blocks state).1.any Scan.cancelled = true) :
    discovery.run watch blocks table state =
      (discovery.interrupted blocks table (discovery.scanned watch blocks state).1,
        (discovery.scanned watch blocks state).2) := by
  rw [scanned] at stopped
  simp only [run, stopped, if_true]
  rfl

theorem run_join_stopped (going : (discovery.scanned watch blocks state).1.any Scan.cancelled = false)
    (stopped : (watch.poll (discovery.scanned watch blocks state).2).1 = true) :
    discovery.run watch blocks table state =
      (discovery.interrupted blocks table (discovery.scanned watch blocks state).1,
        (watch.poll (discovery.scanned watch blocks state).2).2) := by
  rw [scanned] at going stopped
  simp only [run, going, Bool.false_eq_true, if_false, stopped, if_true]
  rfl

theorem run_finished (going : (discovery.scanned watch blocks state).1.any Scan.cancelled = false)
    (passed : (watch.poll (discovery.scanned watch blocks state).2).1 = false) :
    discovery.run watch blocks table state =
      (discovery.finished blocks, (watch.poll (discovery.scanned watch blocks state).2).2) := by
  have fits := Scan.partition_fits (discovery.scope blocks) discovery.workers
  have scans := Scan.run_all_going (discovery.scope blocks) watch (discovery.shards blocks) state fits going
  rw [scanned] at going passed
  simp only [run, going, Bool.false_eq_true, if_false, passed]
  simp only [scans, List.length_map]
  rfl

end Endings

theorem run_never (discovery : Discovery) (blocks : BlockMap) (table : FunctionTable) :
    (discovery.run Watch.never blocks table ()).1 = discovery.finished blocks := by
  have fits := Scan.partition_fits (discovery.scope blocks) discovery.workers
  have going := Scan.run_all_never (discovery.scope blocks) (discovery.shards blocks) fits
  rw [run_finished discovery Watch.never blocks table () going rfl]

theorem never_cancelled (discovery : Discovery) (blocks : BlockMap) (table : FunctionTable) :
    (discovery.run Watch.never blocks table ()).1.report.cancelled = false := by
  rw [run_never]
  rfl

def gathered (discovery : Discovery) (blocks : BlockMap) : List Candidate :=
  ((discovery.shards blocks).map (Scan.whole (discovery.scope blocks))).flatMap Scan.candidates

theorem shard_blocks_cover (discovery : Discovery) (blocks : BlockMap) :
    (discovery.shards blocks).flatMap (Scan.shardBlocks (discovery.scope blocks)) = blocks.toList := by
  have chained := Shard.partition_chained blocks.size discovery.workers
  have pieces := Shard.chained_pieces blocks.toList 0 blocks.size _ chained
  rw [Nat.sub_zero, List.drop_zero] at pieces
  exact pieces.trans List.take_length

theorem listed_iff (discovery : Discovery) (blocks : BlockMap) (range : AddressRange) :
    discovery.Listed blocks range ↔
      ∃ shard ∈ discovery.shards blocks, range ∈ (discovery.scope blocks).listed shard := by
  simp only [Scope.mem_listed]
  constructor
  · rintro ⟨recorded, shard, member, spans⟩
    exact ⟨shard, member, recorded, spans⟩
  · rintro ⟨shard, member, recorded, spans⟩
    exact ⟨recorded, shard, member, spans⟩

theorem entered_iff (discovery : Discovery) (blocks : BlockMap) (d : Address) :
    discovery.Entered blocks d ↔ ∃ shard ∈ discovery.shards blocks,
      ∃ block ∈ Scan.shardBlocks (discovery.scope blocks) shard, (discovery.scope blocks).edge block = .enters d := by
  simp only [Entered, Scope.edge_enters, ← shard_blocks_cover discovery blocks, List.mem_flatMap]
  constructor
  · rintro ⟨inBounds, block, ⟨shard, member, part⟩, leads⟩
    exact ⟨shard, member, block, part, inBounds, leads⟩
  · rintro ⟨shard, member, block, part, inBounds, leads⟩
    exact ⟨inBounds, block, ⟨shard, member, part⟩, leads⟩

theorem mem_gathered (discovery : Discovery) (blocks : BlockMap) (c : Candidate) :
    c ∈ discovery.gathered blocks ↔ (∃ range, discovery.Listed blocks range ∧ c = .located blocks range) ∨
      ∃ d, discovery.Entered blocks d ∧ c = .entryPoint d := by
  simp only [gathered, List.flatMap_map, List.mem_flatMap, Scan.mem_whole, listed_iff, entered_iff]
  constructor
  · rintro ⟨shard, member, ⟨range, listed, same⟩ | ⟨d, entered, same⟩⟩
    · exact .inl ⟨range, ⟨shard, member, listed⟩, same⟩
    · exact .inr ⟨d, ⟨shard, member, entered⟩, same⟩
  · rintro (⟨range, ⟨shard, member, listed⟩, same⟩ | ⟨d, ⟨shard, member, entered⟩, same⟩)
    · exact ⟨shard, member, .inl ⟨range, listed, same⟩⟩
    · exact ⟨shard, member, .inr ⟨d, entered, same⟩⟩

theorem gathered_settled (discovery : Discovery) (blocks : BlockMap) :
    Candidate.Settled (discovery.gathered blocks) := by
  -- Blocks are looked up from the start and the end alone, whichever shard does it.
  intro a aMember b bMember equal
  obtain ⟨starts, stops⟩ := (Candidate.same_iff a b).mp equal
  rcases (mem_gathered discovery blocks a).mp aMember with ⟨range, _, rfl⟩ | ⟨d, _, rfl⟩
  · rcases (mem_gathered discovery blocks b).mp bMember with ⟨other, _, rfl⟩ | ⟨e, _, rfl⟩
    · have sameStart : range.start = other.start := starts
      have sameStop : range.stop = other.stop := Option.some.inj stops
      rw [Candidate.located, Candidate.located, sameStart, sameStop]
    · exact absurd stops (Option.some_ne_none range.stop)
  · rcases (mem_gathered discovery blocks b).mp bMember with ⟨other, _, rfl⟩ | ⟨e, _, rfl⟩
    · exact absurd stops.symm (Option.some_ne_none other.stop)
    · exact congrArg Candidate.entryPoint starts

def merged (discovery : Discovery) (blocks : BlockMap) : List Candidate :=
  Candidate.fold (Candidate.arrange (discovery.gathered blocks))

theorem merged_ascending (discovery : Discovery) (blocks : BlockMap) :
    (discovery.merged blocks).Pairwise Candidate.Before :=
  Candidate.fold_ascending _ (Candidate.arrange_ascending _)

theorem mem_merged (discovery : Discovery) (blocks : BlockMap) (c : Candidate) :
    c ∈ discovery.merged blocks ↔ c ∈ discovery.gathered blocks ∧
      (c.stop.isSome ∨ ¬ ∃ range, discovery.Listed blocks range ∧ range.start = c.start) := by
  have arranged (d : Candidate) := Candidate.settled_mem_arrange d _ (gathered_settled discovery blocks)
  have bounded : (∃ d ∈ discovery.gathered blocks, d.stop.isSome ∧ d.start = c.start) ↔
      ∃ range, discovery.Listed blocks range ∧ range.start = c.start := by
    constructor
    · rintro ⟨d, member, known, starts⟩
      rcases (mem_gathered discovery blocks d).mp member with ⟨range, listed, rfl⟩ | ⟨e, _, rfl⟩
      · exact ⟨range, listed, starts⟩
      · simp [Candidate.entryPoint] at known
    · rintro ⟨range, listed, starts⟩
      exact ⟨.located blocks range, (mem_gathered discovery blocks _).mpr (.inl ⟨range, listed, rfl⟩), rfl, starts⟩
  rw [merged, Candidate.mem_fold]
  simp only [arranged, bounded]

theorem functions_ascending (discovery : Discovery) (blocks : BlockMap) :
    (discovery.finished blocks).report.functions.Pairwise Candidate.Before :=
  (merged_ascending discovery blocks).filter _

theorem mem_functions (discovery : Discovery) (blocks : BlockMap) (c : Candidate) :
    c ∈ (discovery.finished blocks).report.functions ↔
      ∃ range, discovery.Listed blocks range ∧ c = .located blocks range := by
  change c ∈ (discovery.merged blocks).filter (fun c => c.stop.isSome) ↔ _
  rw [List.mem_filter, mem_merged, mem_gathered]
  constructor
  · rintro ⟨⟨listed | ⟨d, _, rfl⟩, _⟩, known⟩
    · exact listed
    · simp [Candidate.entryPoint] at known
  · rintro ⟨range, listed, rfl⟩
    exact ⟨⟨.inl ⟨range, listed, rfl⟩, .inl rfl⟩, rfl⟩

theorem tentative_ascending (discovery : Discovery) (blocks : BlockMap) :
    (discovery.finished blocks).report.tentative.Pairwise (· < ·) := by
  change (((discovery.merged blocks).filter fun c => c.stop.isNone).map Candidate.start).Pairwise (· < ·)
  rw [List.pairwise_map]
  have ascending := (merged_ascending discovery blocks).filter fun c => c.stop.isNone
  refine ascending.imp_of_mem fun {a b} _ bMember before => ?_
  have unknown : b.stop = none := by simpa using (List.mem_filter.mp bMember).2
  rcases before with less | ⟨_, stops⟩
  · exact less
  · rw [unknown] at stops
    cases stop : a.stop <;> simp [stop, Candidate.StopBefore] at stops

theorem mem_tentative (discovery : Discovery) (blocks : BlockMap) (d : Address) :
    d ∈ (discovery.finished blocks).report.tentative ↔
      discovery.Entered blocks d ∧ ¬ ∃ range, discovery.Listed blocks range ∧ range.start = d := by
  change d ∈ ((discovery.merged blocks).filter fun c => c.stop.isNone).map Candidate.start ↔ _
  rw [List.mem_map]
  constructor
  · rintro ⟨c, member, rfl⟩
    obtain ⟨member, unknown⟩ := List.mem_filter.mp member
    obtain ⟨gathered, alone⟩ := (mem_merged discovery blocks c).mp member
    rcases (mem_gathered discovery blocks c).mp gathered with ⟨range, _, rfl⟩ | ⟨e, entered, rfl⟩
    · simp [Candidate.located] at unknown
    · exact ⟨entered, alone.resolve_left (by simp [Candidate.entryPoint])⟩
  · rintro ⟨entered, alone⟩
    refine ⟨.entryPoint d, List.mem_filter.mpr ⟨?_, rfl⟩, rfl⟩
    rw [mem_merged, mem_gathered]
    exact ⟨.inr ⟨d, entered, rfl⟩, .inr alone⟩

def claims (discovery : Discovery) (blocks : BlockMap) : List IndexRange :=
  ((discovery.shards blocks).map (Scan.whole (discovery.scope blocks))).flatMap Scan.claims

theorem mem_claims (discovery : Discovery) (blocks : BlockMap) (range : IndexRange) :
    range ∈ discovery.claims blocks ↔
      ∃ c ∈ (discovery.finished blocks).report.functions, c.blocks = some range := by
  simp only [claims, List.flatMap_map, List.mem_flatMap, Scan.mem_whole_claims, mem_functions, listed_iff]
  constructor
  · rintro ⟨shard, member, listed, present, touches⟩
    exact ⟨.located blocks listed, ⟨listed, ⟨shard, member, present⟩, rfl⟩, touches⟩
  · rintro ⟨_, ⟨listed, ⟨shard, member, present⟩, rfl⟩, touches⟩
    exact ⟨shard, member, listed, present, touches⟩

theorem finished_claims (discovery : Discovery) (blocks : BlockMap) (index : Nat) :
    (discovery.finished blocks).blocks.blocks[index]? = blocks.blocks[index]?.map fun block =>
      if (discovery.finished blocks).report.functions.any fun c =>
        c.blocks.any fun range => range.contains index
      then block.claim else block := by
  have covered : ((discovery.claims blocks).any fun range => range.contains index) =
      (discovery.finished blocks).report.functions.any fun c =>
        c.blocks.any fun range => range.contains index := by
    rw [Bool.eq_iff_iff]
    simp only [List.any_eq_true, Option.any_eq_true, mem_claims]
    constructor
    · rintro ⟨range, ⟨c, member, touches⟩, inside⟩
      exact ⟨c, member, range, touches, inside⟩
    · rintro ⟨c, member, range, touches, inside⟩
      exact ⟨range, ⟨c, member, touches⟩, inside⟩
  rw [← covered]
  exact claim_all_get blocks (discovery.claims blocks) index

theorem uninterrupted_run (discovery : Discovery) (blocks : BlockMap) (table : FunctionTable) :
    let outcome := (discovery.run Watch.never blocks table ()).1
    (outcome.report.functions.Pairwise Candidate.Before ∧
      ∀ c, c ∈ outcome.report.functions ↔
        ∃ range, discovery.Listed blocks range ∧ c = .located blocks range) ∧
    (outcome.report.tentative.Pairwise (· < ·) ∧
      ∀ d, d ∈ outcome.report.tentative ↔
        discovery.Entered blocks d ∧ ¬ ∃ range, discovery.Listed blocks range ∧ range.start = d) ∧
    (∀ index, outcome.blocks.blocks[index]? = blocks.blocks[index]?.map fun block =>
      if outcome.report.functions.any fun c => c.blocks.any fun range => range.contains index
      then block.claim else block) ∧
    outcome.report.cancelled = false ∧ outcome.refreshes = 1 := by
  intro outcome
  have ended : outcome = discovery.finished blocks := run_never discovery blocks table
  rw [ended]
  exact ⟨⟨functions_ascending discovery blocks, mem_functions discovery blocks⟩,
    ⟨tentative_ascending discovery blocks, mem_tentative discovery blocks⟩,
    finished_claims discovery blocks, rfl, rfl⟩

end FunctionDiscovery.Discovery
