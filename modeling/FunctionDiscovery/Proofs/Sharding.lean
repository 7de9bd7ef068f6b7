import FunctionDiscovery.Proofs.Cancellation
import FunctionDiscovery.Proofs.Statistics
import FunctionDiscovery.Snapshot

set_option autoImplicit false

namespace FunctionDiscovery

namespace BlockMap

def Contiguous (map : BlockMap) : Prop :=
  ∀ index lower upper, map.blocks[index]? = some lower → map.blocks[index + 1]? = some upper → lower.stop = upper.start

theorem contiguous_gapless (map : BlockMap) (contiguous : map.Contiguous) (index : Nat) (a : Address) :
    map.gapAfter index a = false := by
  rw [Bool.eq_false_iff]
  intro gap
  obtain ⟨lower, upper, lowerAt, upperAt, above, below⟩ := (gap_after_iff map index a).mp gap
  rw [← contiguous index lower upper lowerAt upperAt] at below
  exact UInt64.lt_irrefl a (UInt64.lt_of_lt_of_le below above)

theorem bounds_spans (map : BlockMap) (span : AddressRange) (bounded : map.bounds? = some span) (a : Address) :
    map.spans ⟨0, map.size⟩ a = span.contains a := by
  simp only [bounds?, bind, Option.bind_eq_some_iff, Array.back?_eq_getElem?] at bounded
  obtain ⟨first, firstAt, last, lastAt, same⟩ := bounded
  obtain rfl := Option.some.inj same
  simp only [spans, size, firstAt, lastAt, AddressRange.contains]

-- Where the shards of a partition reach: everywhere but into the gaps that they are cut at.
theorem partition_spans (map : BlockMap) (workers : Nat) (a : Address) :
    (∃ shard ∈ Shard.partition map.size workers, map.spans shard a = true) ↔
      map.spans ⟨0, map.size⟩ a = true ∧
        ∀ shard ∈ Shard.partition map.size workers, map.gapAfter (shard.stop - 1) a = false := by
  have chained := Shard.partition_chained map.size workers
  constructor
  · rintro ⟨shard, member, inside⟩
    obtain ⟨-, filled, bound⟩ := Shard.chained_mem _ _ _ chained shard member
    refine ⟨map.spans_widen shard 0 map.size a filled (Nat.zero_le _) bound (Nat.le_refl _) inside, ?_⟩
    intro cut cutMember
    rw [Bool.eq_false_iff]
    intro gap
    have cutFilled := (Shard.chained_mem _ _ _ chained cut cutMember).2.1
    have ordered := Shard.chained_compare _ _ _ chained shard cut member cutMember
    simp [map.gap_not_spanned cut shard a filled ordered cutFilled gap] at inside
  · rintro ⟨inside, gapless⟩
    obtain ⟨first, _, firstAt, _⟩ := (spans_iff map _ a).mp inside
    have filled : 0 < map.size := (Array.getElem?_eq_some_iff.mp firstAt).1
    rcases map.chained_spans 0 map.size _ a chained filled (Nat.le_refl _) inside with found | ⟨cut, member, gap⟩
    · exact found
    · simp [gapless cut member] at gap

end BlockMap

namespace Discovery

def AvoidsGaps (discovery : Discovery) (blocks : BlockMap) : Prop :=
  ∀ base, discovery.base = some base → ∀ record ∈ discovery.records, ∀ range, record.LiesAt base range →
    ∀ index, blocks.gapAfter index range.start = false

theorem contiguous_avoids_gaps (discovery : Discovery) (blocks : BlockMap) (contiguous : blocks.Contiguous) :
    discovery.AvoidsGaps blocks :=
  fun _ _ _ _ range _ index => blocks.contiguous_gapless contiguous index range.start

section Agreement

variable (discovery : Discovery) (blocks : BlockMap) (avoids : discovery.AvoidsGaps blocks)

include avoids

theorem shards_reach (range : AddressRange) (recorded : range ∈ (discovery.scope blocks).ranges) :
    (∃ shard ∈ discovery.shards blocks, blocks.spans shard range.start = true) ↔
      blocks.spans ⟨0, blocks.size⟩ range.start = true := by
  obtain ⟨base, based, record, member, lies⟩ := (Scope.mem_ranges _ range).mp recorded
  rw [shards, BlockMap.partition_spans, and_iff_left]
  exact fun shard _ => avoids base based record member range lies (shard.stop - 1)

theorem listed_avoiding (range : AddressRange) :
    discovery.Listed blocks range ↔
      range ∈ (discovery.scope blocks).ranges ∧ blocks.spans ⟨0, blocks.size⟩ range.start = true := by
  rw [Scope.mem_ranges]
  exact and_congr_right fun recorded =>
    shards_reach discovery blocks avoids range ((Scope.mem_ranges _ range).mpr recorded)

theorem runtime_functions_avoiding :
    (discovery.finished blocks).report.stats.scan.runtimeFunctions =
      (discovery.scope blocks).ranges.countP fun range => blocks.spans ⟨0, blocks.size⟩ range.start := by
  rw [finished_runtime_functions]
  refine List.countP_congr fun range recorded => ?_
  rw [List.any_eq_true]
  exact shards_reach discovery blocks avoids range recorded

end Agreement

section Workers

variable (discovery : Discovery) (blocks : BlockMap) (few many : Nat) (avoids : discovery.AvoidsGaps blocks)

include avoids

theorem listed_workers (range : AddressRange) :
    Listed { discovery with workers := few } blocks range ↔ Listed { discovery with workers := many } blocks range :=
  (listed_avoiding { discovery with workers := few } blocks avoids range).trans
    (listed_avoiding { discovery with workers := many } blocks avoids range).symm

theorem functions_workers :
    (finished { discovery with workers := few } blocks).report.functions =
      (finished { discovery with workers := many } blocks).report.functions := by
  refine (functions_ascending _ blocks).eq_of_mem_iff (functions_ascending _ blocks) fun c => ?_
  simp only [mem_functions, listed_workers discovery blocks few many avoids]

theorem tentative_workers :
    (finished { discovery with workers := few } blocks).report.tentative =
      (finished { discovery with workers := many } blocks).report.tentative := by
  refine (tentative_ascending _ blocks).eq_of_mem_iff (tentative_ascending _ blocks) fun d => ?_
  simp only [mem_tentative, listed_workers discovery blocks few many avoids]
  rfl

theorem blocks_workers :
    (finished { discovery with workers := few } blocks).blocks =
      (finished { discovery with workers := many } blocks).blocks := by
  refine BlockMap.eq_of_blocks _ _ fun index => ?_
  rw [finished_claims, finished_claims, functions_workers discovery blocks few many avoids]

theorem blocks_claimed_workers :
    (finished { discovery with workers := few } blocks).report.stats.blocksClaimed =
      (finished { discovery with workers := many } blocks).report.stats.blocksClaimed := by
  have one := finished_blocks_claimed { discovery with workers := few } blocks
  have other := finished_blocks_claimed { discovery with workers := many } blocks
  rw [blocks_workers discovery blocks few many avoids] at one
  omega

theorem scan_stats_workers :
    (finished { discovery with workers := few } blocks).report.stats.scan =
      (finished { discovery with workers := many } blocks).report.stats.scan := by
  have calls {count : Stats → Nat} (counter : CallCounter count) :
      count (finished { discovery with workers := few } blocks).report.stats.scan =
        count (finished { discovery with workers := many } blocks).report.stats.scan :=
    (finished_calls counter _ blocks).trans (finished_calls counter { discovery with workers := many } blocks).symm
  have listing := (runtime_functions_avoiding { discovery with workers := few } blocks avoids).trans
    (runtime_functions_avoiding { discovery with workers := many } blocks avoids).symm
  have missing : (finished { discovery with workers := few } blocks).report.stats.scan.unresolved =
      (finished { discovery with workers := many } blocks).report.stats.scan.unresolved := by
    rw [finished_unresolved, finished_unresolved, functions_workers discovery blocks few many avoids]
  rw [Stats.mk.injEq]
  exact ⟨listing, calls call_edges_counter, calls unreadable_pointers_counter, calls unreadable_targets_counter,
    calls out_of_bounds_counter, missing⟩

end Workers

-- The tables before the two runs may differ: a run that comes to its end starts from an empty one.
theorem workers_agree {σ τ : Type} (discovery : Discovery) (blocks : BlockMap) (watch : Watch σ) (again : Watch τ)
    (before earlier : FunctionTable) (state : σ) (next : τ) (few many : Nat) :
    (blocks.Contiguous → discovery.AvoidsGaps blocks) ∧
    (discovery.AvoidsGaps blocks →
      let one := (run { discovery with workers := few } watch blocks before state).1
      let other := (run { discovery with workers := many } again blocks earlier next).1
      one.report.cancelled = false → other.report.cancelled = false →
      one.report.functions = other.report.functions ∧ one.report.tentative = other.report.tentative ∧
      one.table = other.table ∧ one.blocks = other.blocks ∧
      one.report.stats = { other.report.stats with shards := one.report.stats.shards }) := by
  refine ⟨contiguous_avoids_gaps discovery blocks, ?_⟩
  intro avoids one other oneGoing otherGoing
  have oneEnded : one = finished { discovery with workers := few } blocks :=
    run_uncancelled _ watch blocks before state oneGoing
  have otherEnded : other = finished { discovery with workers := many } blocks :=
    run_uncancelled _ again blocks earlier next otherGoing
  rw [oneEnded, otherEnded]
  have functions := functions_workers discovery blocks few many avoids
  have tables : (finished { discovery with workers := few } blocks).table =
      (finished { discovery with workers := many } blocks).table :=
    congrArg (fun functions => (commitAll functions ({}, 0, 0)).1) functions
  have commits := congrArg (fun functions => (commitAll functions ({}, 0, 0)).2) functions
  refine ⟨functions, tentative_workers discovery blocks few many avoids, tables,
    blocks_workers discovery blocks few many avoids, ?_⟩
  rw [DiscoveryStats.mk.injEq]
  exact ⟨scan_stats_workers discovery blocks few many avoids, rfl,
    blocks_claimed_workers discovery blocks few many avoids, congrArg Prod.fst commits, congrArg Prod.snd commits⟩

def twoApart : BlockMap :=
  ⟨#[{ start := 0x1000, stop := 0x1010 }, { start := 0x1020, stop := 0x1030 }], by decide, by decide⟩

def twoWorkers (base : Address) (records : List RuntimeFunction) : Discovery :=
  ⟨⟨0x1000, 0x1030⟩, some base, records, Snapshot.memory {}, 2, .bits64⟩

theorem two_apart_gap (index : Nat) (a : Address) (gap : twoApart.gapAfter index a = true) : index = 0 := by
  obtain ⟨_, upper, _, upperAt, _⟩ := (BlockMap.gap_after_iff twoApart index a).mp gap
  have bound : index + 1 < 2 := (Array.getElem?_eq_some_iff.mp upperAt).1
  omega

theorem workers_agree_two_apart :
    let discovery := twoWorkers 0xfffffffffffff000 [⟨0x2000, 0x2010, 0⟩, ⟨0x2024, 0x2030, 0⟩]
    let one := (run { discovery with workers := 0 } Watch.never twoApart {} ()).1
    let other := (run { discovery with workers := 9 } Watch.never twoApart ⟨[⟨0x9000, 0x900f, false⟩]⟩ ()).1
    discovery.AvoidsGaps twoApart ∧ one.report.cancelled = false ∧ other.report.cancelled = false ∧
      one.report.functions = other.report.functions ∧
      one.report.tentative = other.report.tentative ∧ one.table = other.table ∧ one.blocks = other.blocks ∧
      one.report.stats = { other.report.stats with shards := one.report.stats.shards } := by
  intro discovery one other
  have outside : ∀ record ∈ discovery.records, twoApart.gapAfter 0 (record.range 0xfffffffffffff000).start = false := by
    decide
  have avoids : discovery.AvoidsGaps twoApart := by
    intro base based record member range lies index
    obtain rfl : 0xfffffffffffff000 = base := Option.some.inj based
    obtain rfl := (record.lies_at_iff _ range).mp lies
    rw [Bool.eq_false_iff]
    intro gap
    obtain rfl := two_apart_gap index _ gap
    exact Bool.false_ne_true ((outside record member).symm.trans gap)
  have oneGoing : one.report.cancelled = false := never_cancelled _ twoApart {}
  have otherGoing : other.report.cancelled = false := never_cancelled _ twoApart _
  exact ⟨avoids, oneGoing, otherGoing,
    (workers_agree discovery twoApart Watch.never Watch.never {} _ () () 0 9).2 avoids oneGoing otherGoing⟩

theorem record_at_cut_lost : ¬ ∀ (discovery : Discovery) (blocks : BlockMap) (table : FunctionTable)
    (base : Address) (record : RuntimeFunction) (range span : AddressRange),
    discovery.base = some base → record ∈ discovery.records → record.LiesAt base range →
    blocks.bounds? = some span → span.contains range.start = true →
    ∃ c ∈ (discovery.run Watch.never blocks table ()).1.report.functions,
      c.start = range.start ∧ c.stop = some range.stop := by
  intro reported
  obtain ⟨c, member, -⟩ := reported (twoWorkers 0 [⟨0x1018, 0x1020, 0⟩]) twoApart {} 0 ⟨0x1018, 0x1020, 0⟩
    ⟨0x1018, 0x1020⟩ ⟨0x1000, 0x1030⟩ rfl List.mem_cons_self ⟨rfl, rfl⟩ rfl (by decide)
  rw [run_never] at member
  obtain ⟨range, ⟨⟨base, based, record, recorded, lies⟩, shard, cut, spans⟩, -⟩ := (mem_functions _ _ c).mp member
  obtain rfl : 0 = base := Option.some.inj based
  obtain rfl := List.mem_singleton.mp recorded
  obtain rfl := (RuntimeFunction.lies_at_iff _ _ range).mp lies
  revert spans
  revert shard
  decide

-- The last block of the last shard has no block after it, so this is about the gaps at cuts only.
theorem reported_unless_at_cut {σ : Type} (discovery : Discovery) (watch : Watch σ) (blocks : BlockMap)
    (table : FunctionTable) (state : σ)
    (going : (discovery.run watch blocks table state).1.report.cancelled = false) (base : Address)
    (record : RuntimeFunction) (range span : AddressRange) (based : discovery.base = some base)
    (recorded : record ∈ discovery.records) (lies : record.LiesAt base range) (bounded : blocks.bounds? = some span)
    (inside : span.contains range.start = true) :
    (∃ c ∈ (discovery.run watch blocks table state).1.report.functions,
      c.start = range.start ∧ c.stop = some range.stop) ↔
      ∀ shard ∈ Shard.partition blocks.size discovery.workers, blocks.gapAfter (shard.stop - 1) range.start = false := by
  have whole := (blocks.bounds_spans span bounded _).trans inside
  rw [run_uncancelled discovery watch blocks table state going]
  constructor
  · rintro ⟨c, member, starts, _⟩
    obtain ⟨found, ⟨_, reached⟩, rfl⟩ := (mem_functions discovery blocks c).mp member
    rw [← starts]
    exact ((blocks.partition_spans discovery.workers found.start).mp reached).2
  · intro gapless
    have reached := (blocks.partition_spans discovery.workers _).mpr ⟨whole, gapless⟩
    refine ⟨.located blocks range, (mem_functions discovery blocks _).mpr ?_, rfl, rfl⟩
    exact ⟨range, ⟨⟨base, based, record, recorded, lies⟩, reached⟩, rfl⟩

theorem reported_beside_cut :
    let discovery := twoWorkers 0x400 [⟨0xc18, 0xc20, 0⟩, ⟨0xc24, 0xc30, 0⟩]
    let outcome := (discovery.run Watch.never twoApart {} ()).1
    outcome.report.cancelled = false ∧ discovery.base = some 0x400 ∧ ⟨0xc24, 0xc30, 0⟩ ∈ discovery.records ∧
      RuntimeFunction.LiesAt ⟨0xc24, 0xc30, 0⟩ 0x400 ⟨0x1024, 0x1030⟩ ∧ twoApart.bounds? = some ⟨0x1000, 0x1030⟩ ∧
      ∃ c ∈ outcome.report.functions, c.start = 0x1024 ∧ c.stop = some 0x1030 := by
  intro discovery outcome
  have going : outcome.report.cancelled = false := never_cancelled discovery twoApart {}
  have recorded : ⟨0xc24, 0xc30, 0⟩ ∈ discovery.records := List.mem_cons_of_mem _ List.mem_cons_self
  have lies : RuntimeFunction.LiesAt ⟨0xc24, 0xc30, 0⟩ 0x400 ⟨0x1024, 0x1030⟩ := ⟨rfl, rfl⟩
  refine ⟨going, rfl, recorded, lies, rfl, ?_⟩
  exact (reported_unless_at_cut discovery Watch.never twoApart {} () going 0x400 ⟨0xc24, 0xc30, 0⟩ ⟨0x1024, 0x1030⟩
    ⟨0x1000, 0x1030⟩ rfl recorded lies rfl (by decide)).mpr (by decide)

end Discovery

end FunctionDiscovery
