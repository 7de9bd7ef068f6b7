import FunctionDiscovery.Proofs.Findings

set_option autoImplicit false

namespace FunctionDiscovery

-- A number that adds up when statistics are added.
structure Counter (count : Stats → Nat) : Prop where
  start : count {} = 0
  add : ∀ a b, count (a + b) = count a + count b

structure CallCounter (count : Stats → Nat) : Prop extends Counter count where
  listing : ∀ n, count { runtimeFunctions := n } = 0
  missing : ∀ stats n, count { stats with unresolved := n } = count stats

theorem runtime_functions_counter : Counter Stats.runtimeFunctions := ⟨rfl, fun _ _ => rfl⟩

theorem unresolved_counter : Counter Stats.unresolved := ⟨rfl, fun _ _ => rfl⟩

theorem call_edges_counter : CallCounter Stats.callEdges :=
  ⟨⟨rfl, fun _ _ => rfl⟩, fun _ => rfl, fun _ _ => rfl⟩

theorem unreadable_pointers_counter : CallCounter Stats.unreadablePointers :=
  ⟨⟨rfl, fun _ _ => rfl⟩, fun _ => rfl, fun _ _ => rfl⟩

theorem unreadable_targets_counter : CallCounter Stats.unreadableTargets :=
  ⟨⟨rfl, fun _ _ => rfl⟩, fun _ => rfl, fun _ _ => rfl⟩

theorem out_of_bounds_counter : CallCounter Stats.outOfBounds :=
  ⟨⟨rfl, fun _ _ => rfl⟩, fun _ => rfl, fun _ _ => rfl⟩

theorem fold_counter {α : Type} {count : Stats → Nat} (counter : Counter count) (stats : α → Stats) (start : Stats)
    (xs : List α) :
    count (xs.foldl (fun total x => total + stats x) start) =
      count start + (xs.map fun x => count (stats x)).sum := by
  induction xs generalizing start with
  | nil => rfl
  | cons x xs ih =>
    rw [List.foldl_cons, ih, counter.add, List.map_cons, List.sum_cons, Nat.add_assoc]

theorem count_disjoint {α ι : Type} (test : ι → α → Bool) (tests : List ι) (xs : List α)
    (disjoint : tests.Pairwise fun i j => ∀ x, test i x = true → test j x = false) :
    (tests.map fun i => xs.countP (test i)).sum = xs.countP fun x => tests.any fun i => test i x := by
  induction tests with
  | nil => simp
  | cons i rest ih =>
    obtain ⟨apart, others⟩ := List.pairwise_cons.mp disjoint
    have rest_only : (fun x => (rest.any fun j => test j x) && !test i x) = fun x => rest.any fun j => test j x := by
      funext x
      cases hit : test i x with
      | false => simp
      | true =>
        have none : (rest.any fun j => test j x) = false := by
          simpa using fun j member => apart j member x hit
        simp [none]
    rw [List.map_cons, List.sum_cons, ih others]
    simp only [List.any_cons]
    rw [count_split (test i), rest_only]

namespace Discovery

theorem merged_counter {count : Stats → Nat} (counter : Counter count) (scans : List Scan) :
    count (mergedStats scans) = (scans.map fun scan => count scan.stats).sum := by
  rw [mergedStats, fold_counter counter Scan.stats, counter.start, Nat.zero_add]

theorem whole_calls {count : Stats → Nat} (counter : CallCounter count) (scope : Scope) (shard : IndexRange) :
    count (Scan.whole scope shard).stats =
      ((Scan.shardBlocks scope shard).map fun block => count (scope.edge block).stats).sum := by
  rw [Scan.whole, Scan.finish, counter.missing, Scan.gather, fold_counter counter.toCounter, counter.listing,
    Nat.zero_add, List.map_map]
  rfl

theorem finished_calls {count : Stats → Nat} (counter : CallCounter count) (discovery : Discovery)
    (blocks : BlockMap) :
    count (discovery.finished blocks).report.stats.scan =
      (blocks.toList.map fun block => count ((discovery.scope blocks).edge block).stats).sum := by
  change count (mergedStats ((discovery.shards blocks).map (Scan.whole (discovery.scope blocks)))) = _
  rw [merged_counter counter.toCounter, List.map_map, ← shard_blocks_cover discovery blocks, List.map_flatMap,
    List.flatMap_def, List.sum_flatten, List.map_map]
  congr 1
  exact List.map_congr_left fun shard _ => whole_calls counter (discovery.scope blocks) shard

theorem shards_disjoint (discovery : Discovery) (blocks : BlockMap) :
    (discovery.shards blocks).Pairwise fun lower upper =>
      ∀ a, blocks.spans lower a = true → blocks.spans upper a = false := by
  have chained := Shard.partition_chained blocks.size discovery.workers
  refine (Shard.chained_ordered _ _ _ chained).imp_of_mem fun {lower upper} member _ ordered a inside => ?_
  exact blocks.spans_disjoint lower upper a (Shard.chained_mem _ _ _ chained lower member).2.1 ordered inside

theorem whole_runtime_functions (scope : Scope) (shard : IndexRange) :
    (Scan.whole scope shard).stats.runtimeFunctions = (scope.listed shard).length := by
  -- Calls count no recorded functions.
  have silent (block : Block) : (scope.edge block).stats.runtimeFunctions = 0 := by
    cases scope.edge block <;> rfl
  change (Scan.gather _ _).stats.runtimeFunctions = _
  rw [Scan.gather, fold_counter runtime_functions_counter, List.map_map]
  simp [Function.comp_def, silent]

theorem finished_runtime_functions (discovery : Discovery) (blocks : BlockMap) :
    (discovery.finished blocks).report.stats.scan.runtimeFunctions =
      (discovery.scope blocks).ranges.countP fun range =>
        (discovery.shards blocks).any fun shard => blocks.spans shard range.start := by
  change (mergedStats ((discovery.shards blocks).map (Scan.whole (discovery.scope blocks)))).runtimeFunctions = _
  rw [merged_counter runtime_functions_counter, List.map_map]
  have each (shard : IndexRange) : (Scan.whole (discovery.scope blocks) shard).stats.runtimeFunctions =
      (discovery.scope blocks).ranges.countP fun range => blocks.spans shard range.start := by
    rw [whole_runtime_functions, Scope.listed_eq, List.countP_eq_length_filter]
    rfl
  simp only [Function.comp_def, each]
  refine count_disjoint (fun shard (range : AddressRange) => blocks.spans shard range.start) _ _ ?_
  exact (shards_disjoint discovery blocks).imp fun apart (range : AddressRange) => apart range.start

def shardFunctions (scope : Scope) (shard : IndexRange) : List Candidate :=
  ((Candidate.arrange (Scan.found scope shard)).filter fun c => c.stop.isSome).map (Candidate.resolve scope.blocks)

theorem mem_shard_functions (scope : Scope) (shard : IndexRange) (c : Candidate) :
    c ∈ shardFunctions scope shard ↔ ∃ range ∈ scope.listed shard, c = .located scope.blocks range := by
  rw [shardFunctions, List.mem_map]
  constructor
  · rintro ⟨bare, member, rfl⟩
    obtain ⟨member, known⟩ := List.mem_filter.mp member
    rcases (Scan.mem_arranged scope shard bare).mp member with ⟨range, listed, rfl⟩ | ⟨d, _, rfl⟩
    · exact ⟨range, listed, Candidate.resolve_of_range scope.blocks range⟩
    · simp [Candidate.entryPoint] at known
  · rintro ⟨range, listed, rfl⟩
    have member := (Scan.mem_arranged scope shard _).mpr (.inl ⟨range, listed, rfl⟩)
    exact ⟨.ofRange range, List.mem_filter.mpr ⟨member, rfl⟩, Candidate.resolve_of_range scope.blocks range⟩

theorem shard_functions_ascending (scope : Scope) (shard : IndexRange) :
    (shardFunctions scope shard).Pairwise Candidate.Before := by
  rw [shardFunctions, List.pairwise_map]
  refine ((Candidate.arrange_ascending _).filter _).imp fun {a b} before => ?_
  simpa only [Candidate.Before, Candidate.resolve_start, Candidate.resolve_stop] using before

theorem shard_functions_spanned (scope : Scope) (shard : IndexRange) (c : Candidate)
    (member : c ∈ shardFunctions scope shard) : scope.blocks.spans shard c.start = true := by
  obtain ⟨range, listed, rfl⟩ := (mem_shard_functions scope shard c).mp member
  exact ((Scope.mem_listed scope shard range).mp listed).2

theorem functions_by_shard (discovery : Discovery) (blocks : BlockMap) :
    (discovery.finished blocks).report.functions =
      (discovery.shards blocks).flatMap (shardFunctions (discovery.scope blocks)) := by
  have chained := Shard.partition_chained blocks.size discovery.workers
  refine (functions_ascending discovery blocks).eq_of_mem_iff ?_ fun c => ?_
  · refine List.pairwise_flatMap.mpr ⟨fun shard _ => shard_functions_ascending _ shard, ?_⟩
    refine (Shard.chained_ordered _ _ _ chained).imp_of_mem fun {lower upper} member _ ordered a inLower b inUpper => ?_
    have filled := (Shard.chained_mem _ _ _ chained lower member).2.1
    exact .inl (blocks.spans_ordered lower upper a.start b.start filled ordered
      (shard_functions_spanned _ lower a inLower) (shard_functions_spanned _ upper b inUpper))
  · rw [mem_functions, List.mem_flatMap]
    constructor
    · rintro ⟨range, listed, rfl⟩
      obtain ⟨shard, member, present⟩ := (listed_iff discovery blocks range).mp listed
      exact ⟨shard, member, (mem_shard_functions _ shard _).mpr ⟨range, present, rfl⟩⟩
    · rintro ⟨shard, member, inside⟩
      obtain ⟨range, present, rfl⟩ := (mem_shard_functions _ shard c).mp inside
      exact ⟨range, (listed_iff discovery blocks range).mpr ⟨shard, member, present⟩, rfl⟩

theorem shard_functions_misses (scope : Scope) (shard : IndexRange) :
    (shardFunctions scope shard).countP (fun c => c.blocks.isNone) =
      Candidate.misses scope.blocks (Candidate.arrange (Scan.found scope shard)) := by
  rw [shardFunctions, List.countP_map, List.countP_filter, Candidate.misses]
  refine List.countP_congr fun c member => ?_
  rcases (Scan.mem_arranged scope shard c).mp member with ⟨range, _, rfl⟩ | ⟨d, _, rfl⟩
  · rw [Function.comp_apply, Candidate.resolve_of_range]
    simp [Candidate.located, Candidate.span?, Candidate.ofRange]
  · simp [Candidate.entryPoint]

theorem finished_unresolved (discovery : Discovery) (blocks : BlockMap) :
    (discovery.finished blocks).report.stats.scan.unresolved =
      (discovery.finished blocks).report.functions.countP fun c => c.blocks.isNone := by
  change (mergedStats ((discovery.shards blocks).map (Scan.whole (discovery.scope blocks)))).unresolved = _
  rw [merged_counter unresolved_counter, List.map_map, functions_by_shard, List.countP_flatMap]
  congr 1
  exact List.map_congr_left fun shard _ => (shard_functions_misses (discovery.scope blocks) shard).symm

theorem finished_blocks_claimed (discovery : Discovery) (blocks : BlockMap) :
    (discovery.finished blocks).blocks.claimedCount =
      blocks.claimedCount + (discovery.finished blocks).report.stats.blocksClaimed :=
  claim_all_count blocks (discovery.claims blocks)

end Discovery

end FunctionDiscovery
