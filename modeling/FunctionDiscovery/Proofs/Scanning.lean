import FunctionDiscovery.Proofs.CandidateOrder
import FunctionDiscovery.Proofs.Spans
import FunctionDiscovery.Scan

set_option autoImplicit false

namespace FunctionDiscovery

namespace RuntimeFunction

-- Both ends are counted from the base, and wrap around at the end of the address space.
def LiesAt (record : RuntimeFunction) (base : Address) (range : AddressRange) : Prop :=
  range.start.toNat = (base.toNat + record.start.toNat) % UInt64.size ∧
    range.stop.toNat = (base.toNat + record.stop.toNat) % UInt64.size

theorem range_start (record : RuntimeFunction) (base : Address) :
    (record.range base).start.toNat = (base.toNat + record.start.toNat) % UInt64.size := by
  rw [range, UInt64.toNat_add, UInt32.toNat_toUInt64]

theorem range_stop (record : RuntimeFunction) (base : Address) :
    (record.range base).stop.toNat = (base.toNat + record.stop.toNat) % UInt64.size := by
  rw [range, UInt64.toNat_add, UInt32.toNat_toUInt64]

theorem lies_at_iff (record : RuntimeFunction) (base : Address) (range : AddressRange) :
    record.LiesAt base range ↔ record.range base = range := by
  rw [LiesAt, ← range_start, ← range_stop, UInt64.toNat_inj, UInt64.toNat_inj]
  constructor
  · intro same
    exact congrArg₂ AddressRange.mk same.1.symm same.2.symm
  · rintro rfl
    exact ⟨rfl, rfl⟩

theorem lies_at_unique (record : RuntimeFunction) (base : Address) (one other : AddressRange)
    (oneAt : record.LiesAt base one) (otherAt : record.LiesAt base other) : one = other :=
  ((record.lies_at_iff base one).mp oneAt).symm.trans ((record.lies_at_iff base other).mp otherAt)

end RuntimeFunction

namespace Scope

def ranges (scope : Scope) : List AddressRange :=
  match scope.base with
  | none => []
  | some base => scope.records.map (·.range base)

theorem mem_ranges (scope : Scope) (range : AddressRange) :
    range ∈ scope.ranges ↔ ∃ base, scope.base = some base ∧ ∃ record ∈ scope.records, record.LiesAt base range := by
  simp only [RuntimeFunction.lies_at_iff]
  rw [ranges]
  cases scope.base <;> simp

theorem listed_eq (scope : Scope) (shard : IndexRange) :
    scope.listed shard = scope.ranges.filter fun range => scope.blocks.spans shard range.start := by
  rw [listed, ranges, limits?]
  cases scope.base with
  | none => simp
  | some base =>
    cases first : scope.blocks.blocks[shard.first]? with
    | none => simp [BlockMap.spans, first]
    | some lower =>
      cases last : scope.blocks.blocks[shard.stop - 1]? with
      | none => simp [BlockMap.spans, first, last]
      | some upper => simp [BlockMap.spans, first, last, AddressRange.contains]

theorem mem_listed (scope : Scope) (shard : IndexRange) (range : AddressRange) :
    range ∈ scope.listed shard ↔
      (∃ base, scope.base = some base ∧ ∃ record ∈ scope.records, record.LiesAt base range) ∧
        scope.blocks.spans shard range.start = true := by
  rw [listed_eq, List.mem_filter, mem_ranges]

def destination? (scope : Scope) (block : Block) : Option Address :=
  if block.isIndirect then
    (scope.memory.readPointer block.target scope.width).toOption.filter scope.memory.isReadable
  else some block.target

def LeadsTo (scope : Scope) (block : Block) (d : Address) : Prop :=
  block.isCall = true ∧ scope.destination? block = some d

theorem edge_cases (scope : Scope) (block : Block) :
    (block.isCall = false ∧ scope.edge block = .none) ∨
    (block.isCall = true ∧ scope.destination? block = none ∧
      (scope.edge block = .unreadablePointer ∨ scope.edge block = .unreadableTarget)) ∨
    (block.isCall = true ∧ ∃ d, scope.destination? block = some d ∧ scope.edge block = scope.arrival d) := by
  rw [edge, destination?]
  cases block.isCall with
  | false => simp
  | true =>
    cases block.isIndirect with
    | false => simp
    | true =>
      cases scope.memory.readPointer block.target scope.width with
      | error fault => simp [Except.toOption]
      | ok destination => cases readable : scope.memory.isReadable destination <;> simp [readable, Except.toOption]

theorem arrival_enters (scope : Scope) (destination d : Address) :
    scope.arrival destination = .enters d ↔ scope.bounds.contains d = true ∧ destination = d := by
  rw [arrival]
  by_cases inside : scope.bounds.contains destination = true
  · rw [if_pos inside, Edge.enters.injEq]
    constructor
    · rintro rfl
      exact ⟨inside, rfl⟩
    · exact And.right
  · rw [if_neg inside]
    constructor
    · intro enters
      cases enters
    · rintro ⟨within, rfl⟩
      exact absurd within inside

theorem edge_enters (scope : Scope) (block : Block) (d : Address) :
    scope.edge block = .enters d ↔ scope.bounds.contains d = true ∧ scope.LeadsTo block d := by
  rw [LeadsTo]
  rcases edge_cases scope block with ⟨quiet, edge⟩ | ⟨call, lost, edge | edge⟩ | ⟨call, e, found, edge⟩
  · simp [quiet, edge]
  · simp [lost, edge]
  · simp [lost, edge]
  · rw [edge, arrival_enters, call, found, Option.some.injEq]
    exact and_congr_right fun _ => (and_iff_right rfl).symm

end Scope

namespace Candidate

def located (map : BlockMap) (range : AddressRange) : Candidate :=
  ⟨range.start, some range.stop, map.touching? range.start range.stop⟩

theorem resolve_of_range (map : BlockMap) (range : AddressRange) :
    (ofRange range).resolve map = located map range := by
  simp only [resolve, span?, ofRange, located, Option.bind_some]
  cases map.touching? range.start range.stop <;> rfl

theorem resolve_entry_point (map : BlockMap) (d : Address) : (entryPoint d).resolve map = entryPoint d := rfl

theorem resolve_start (map : BlockMap) (c : Candidate) : (c.resolve map).start = c.start := by
  rw [resolve]
  split <;> rfl

theorem resolve_stop (map : BlockMap) (c : Candidate) : (c.resolve map).stop = c.stop := by
  rw [resolve]
  split <;> rfl

end Candidate

namespace Scan

variable {σ : Type}

def whole (scope : Scope) (shard : IndexRange) : Scan :=
  finish scope (gather (scope.listed shard) ((shardBlocks scope shard).map scope.edge))

def Fits (scope : Scope) (shard : IndexRange) : Prop :=
  shard.first < shard.stop ∧ shard.stop ≤ scope.blocks.size

theorem partition_fits (scope : Scope) (workers : Nat) :
    ∀ shard ∈ Shard.partition scope.blocks.size workers, Fits scope shard := by
  intro shard member
  have chained := Shard.partition_chained scope.blocks.size workers
  exact (Shard.chained_mem _ _ _ chained shard member).2

theorem follow_going (scope : Scope) (watch : Watch σ) (blocks : List Block) (state : σ)
    (going : (follow scope watch blocks state).2.1 = false) :
    (follow scope watch blocks state).1 = blocks.map scope.edge := by
  induction blocks generalizing state with
  | nil => rfl
  | cons block rest ih =>
    rw [follow] at going ⊢
    cases answer : watch.poll state with
    | mk stop next =>
      cases stop with
      | true => simp [answer] at going
      | false =>
        simp only [answer] at going ⊢
        rw [List.map_cons, ih _ going]

theorem follow_never (scope : Scope) (blocks : List Block) :
    (follow scope Watch.never blocks ()).2.1 = false := by
  induction blocks with
  | nil => rfl
  | cons block rest ih => exact ih

theorem run_fits (scope : Scope) (watch : Watch σ) (shard : IndexRange) (state : σ) (fits : Fits scope shard) :
    run scope watch shard state =
      (let followed := follow scope watch (shardBlocks scope shard) state
      let scan := gather (scope.listed shard) followed.1
      (if followed.2.1 then { scan with cancelled := true } else finish scope scan, followed.2.2)) := by
  have guard : (shard.isEmpty || decide (scope.blocks.size < shard.stop)) = false := by
    simp only [IndexRange.isEmpty, Bool.or_eq_false_iff, decide_eq_false_iff_not]
    exact ⟨Nat.not_le.mpr fits.1, Nat.not_lt.mpr fits.2⟩
  rw [run, guard]
  rfl

theorem run_cancelled (scope : Scope) (watch : Watch σ) (shard : IndexRange) (state : σ)
    (fits : Fits scope shard) :
    (run scope watch shard state).1.cancelled = (follow scope watch (shardBlocks scope shard) state).2.1 := by
  rw [run_fits scope watch shard state fits]
  dsimp only
  cases (follow scope watch (shardBlocks scope shard) state).2.1 <;> rfl

theorem run_going (scope : Scope) (watch : Watch σ) (shard : IndexRange) (state : σ) (fits : Fits scope shard)
    (going : (run scope watch shard state).1.cancelled = false) :
    (run scope watch shard state).1 = whole scope shard := by
  rw [run_cancelled scope watch shard state fits] at going
  rw [run_fits scope watch shard state fits]
  simp only [going, follow_going scope watch _ state going]
  rfl

theorem run_all_cons (scope : Scope) (watch : Watch σ) (shard : IndexRange) (rest : List IndexRange) (state : σ) :
    runAll scope watch (shard :: rest) state =
      ((run scope watch shard state).1 :: (runAll scope watch rest (run scope watch shard state).2).1,
        (runAll scope watch rest (run scope watch shard state).2).2) := rfl

theorem run_all_going (scope : Scope) (watch : Watch σ) (shards : List IndexRange) (state : σ)
    (fits : ∀ shard ∈ shards, Fits scope shard)
    (going : (runAll scope watch shards state).1.any Scan.cancelled = false) :
    (runAll scope watch shards state).1 = shards.map (whole scope) := by
  induction shards generalizing state with
  | nil => rfl
  | cons shard rest ih =>
    rw [run_all_cons, List.any_cons, Bool.or_eq_false_iff] at going
    obtain ⟨first, others⟩ := going
    rw [run_all_cons, List.map_cons, run_going scope watch shard state (fits shard List.mem_cons_self) first,
      ih _ (fun shard member => fits shard (List.mem_cons_of_mem _ member)) others]

theorem run_all_never (scope : Scope) (shards : List IndexRange) (fits : ∀ shard ∈ shards, Fits scope shard) :
    (runAll scope Watch.never shards ()).1.any Scan.cancelled = false := by
  induction shards with
  | nil => rfl
  | cons shard rest ih =>
    rw [run_all_cons, List.any_cons, Bool.or_eq_false_iff,
      run_cancelled scope Watch.never shard () (fits shard List.mem_cons_self), follow_never]
    exact ⟨rfl, ih fun shard member => fits shard (List.mem_cons_of_mem _ member)⟩

def found (scope : Scope) (shard : IndexRange) : List Candidate :=
  (gather (scope.listed shard) ((shardBlocks scope shard).map scope.edge)).candidates

theorem mem_found (scope : Scope) (shard : IndexRange) (c : Candidate) :
    c ∈ found scope shard ↔ (∃ range ∈ scope.listed shard, c = .ofRange range) ∨
      ∃ d, (∃ block ∈ shardBlocks scope shard, scope.edge block = .enters d) ∧ c = .entryPoint d := by
  simp only [found, gather, List.mem_append, List.mem_map, List.mem_flatMap]
  refine or_congr (exists_congr fun range => and_congr_right fun _ => eq_comm) ?_
  constructor
  · rintro ⟨edge, ⟨block, member, rfl⟩, inside⟩
    cases entered : scope.edge block with
    | enters d =>
      rw [entered] at inside
      exact ⟨d, ⟨block, member, entered⟩, List.mem_singleton.mp inside⟩
    | _ => simp [entered, Edge.candidates] at inside
  · rintro ⟨d, ⟨block, member, entered⟩, rfl⟩
    exact ⟨_, ⟨block, member, entered⟩, List.mem_singleton.mpr rfl⟩

theorem found_settled (scope : Scope) (shard : IndexRange) : Candidate.Settled (found scope shard) := by
  have bare : ∀ c ∈ found scope shard, c.blocks = none := by
    intro c member
    rcases (mem_found scope shard c).mp member with ⟨range, _, rfl⟩ | ⟨d, _, rfl⟩ <;> rfl
  intro a aMember b bMember equal
  exact Candidate.eq_of_same a b equal ((bare a aMember).trans (bare b bMember).symm)

theorem mem_arranged (scope : Scope) (shard : IndexRange) (c : Candidate) :
    c ∈ Candidate.arrange (found scope shard) ↔ (∃ range ∈ scope.listed shard, c = .ofRange range) ∨
      ∃ d, (∃ block ∈ shardBlocks scope shard, scope.edge block = .enters d) ∧ c = .entryPoint d :=
  (Candidate.settled_mem_arrange c _ (found_settled scope shard)).trans (mem_found scope shard c)

theorem mem_whole (scope : Scope) (shard : IndexRange) (c : Candidate) :
    c ∈ (whole scope shard).candidates ↔
      (∃ range ∈ scope.listed shard, c = .located scope.blocks range) ∨
        ∃ d, (∃ block ∈ shardBlocks scope shard, scope.edge block = .enters d) ∧ c = .entryPoint d := by
  change c ∈ (Candidate.arrange (found scope shard)).map (Candidate.resolve scope.blocks) ↔ _
  rw [List.mem_map]
  constructor
  · rintro ⟨bare, member, rfl⟩
    rcases (mem_arranged scope shard bare).mp member with ⟨range, listed, rfl⟩ | ⟨d, entered, rfl⟩
    · exact .inl ⟨range, listed, Candidate.resolve_of_range scope.blocks range⟩
    · exact .inr ⟨d, entered, rfl⟩
  · rintro (⟨range, listed, rfl⟩ | ⟨d, entered, rfl⟩)
    · exact ⟨.ofRange range, (mem_arranged scope shard _).mpr (.inl ⟨range, listed, rfl⟩),
        Candidate.resolve_of_range scope.blocks range⟩
    · exact ⟨.entryPoint d, (mem_arranged scope shard _).mpr (.inr ⟨d, entered, rfl⟩),
        Candidate.resolve_entry_point scope.blocks d⟩

theorem mem_whole_claims (scope : Scope) (shard : IndexRange) (range : IndexRange) :
    range ∈ (whole scope shard).claims ↔
      ∃ listed ∈ scope.listed shard, scope.blocks.touching? listed.start listed.stop = some range := by
  change range ∈ (Candidate.arrange (found scope shard)).filterMap (Candidate.span? scope.blocks) ↔ _
  rw [List.mem_filterMap]
  constructor
  · rintro ⟨bare, member, span⟩
    rcases (mem_arranged scope shard bare).mp member with ⟨listed, present, rfl⟩ | ⟨d, _, rfl⟩
    · exact ⟨listed, present, span⟩
    · simp [Candidate.span?, Candidate.entryPoint] at span
  · rintro ⟨listed, present, span⟩
    exact ⟨.ofRange listed, (mem_arranged scope shard _).mpr (.inl ⟨listed, present, rfl⟩), span⟩

end Scan

end FunctionDiscovery
