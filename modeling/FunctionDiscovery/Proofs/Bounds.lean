import FunctionDiscovery.Proofs.Commit
import FunctionDiscovery.Proofs.Sharding

set_option autoImplicit false

namespace FunctionDiscovery

namespace BlockMap

theorem spans_bounds (map : BlockMap) (a : Address) (inside : map.spans ⟨0, map.size⟩ a = true) :
    ∃ span, map.bounds? = some span ∧ span.contains a = true := by
  obtain ⟨first, last, firstAt, lastAt, -⟩ := (spans_iff map _ a).mp inside
  have bounded : map.bounds? = some ⟨first.start, last.stop⟩ := by
    have lastBack : map.blocks.back? = some last := Array.back?_eq_getElem?.trans lastAt
    simp only [bounds?, firstAt, lastBack]
    rfl
  exact ⟨_, bounded, (map.bounds_spans _ bounded a).symm.trans inside⟩

end BlockMap

namespace Discovery

def CoversBlocks (discovery : Discovery) (blocks : BlockMap) : Prop :=
  ∀ span, blocks.bounds? = some span →
    discovery.bounds.start ≤ span.start ∧ span.stop ≤ discovery.bounds.stop

section Starts

variable (discovery : Discovery) (blocks : BlockMap)

theorem tentative_bounded (d : Address) (member : d ∈ (discovery.finished blocks).report.tentative) :
    discovery.bounds.contains d = true :=
  ((mem_tentative discovery blocks d).mp member).1.1

theorem function_spanned (c : Candidate) (member : c ∈ (discovery.finished blocks).report.functions) :
    ∃ span, blocks.bounds? = some span ∧ span.contains c.start = true := by
  obtain ⟨range, ⟨-, reached⟩, rfl⟩ := (mem_functions discovery blocks c).mp member
  exact blocks.spans_bounds range.start ((blocks.partition_spans discovery.workers range.start).mp reached).1

theorem record_reported (record : Record) (member : record ∈ (discovery.finished blocks).table.records) :
    ∃ c ∈ (discovery.finished blocks).report.functions, c.start = record.start := by
  rw [(finished_selected discovery blocks).1] at member
  obtain ⟨c, present, stop, -, -, rfl⟩ := selected_source none _ record member
  exact ⟨c, present, rfl⟩

theorem covered_contains (covers : discovery.CoversBlocks blocks) (a : Address)
    (spanned : ∃ span, blocks.bounds? = some span ∧ span.contains a = true) :
    discovery.bounds.contains a = true := by
  obtain ⟨span, bounded, inside⟩ := spanned
  obtain ⟨starts, stops⟩ := covers span bounded
  simp only [AddressRange.contains, Bool.and_eq_true, decide_eq_true_iff] at inside ⊢
  exact ⟨UInt64.le_trans starts inside.1, UInt64.lt_of_lt_of_le inside.2 stops⟩

end Starts

theorem starts_contained {σ : Type} (discovery : Discovery) (watch : Watch σ) (blocks : BlockMap)
    (table : FunctionTable) (state : σ)
    (going : (discovery.run watch blocks table state).1.report.cancelled = false) :
    let outcome := (discovery.run watch blocks table state).1
    (∀ d ∈ outcome.report.tentative, discovery.bounds.contains d = true) ∧
    ((∀ c ∈ outcome.report.functions, ∃ span, blocks.bounds? = some span ∧ span.contains c.start = true) ∧
      ∀ record ∈ outcome.table.records, ∃ span, blocks.bounds? = some span ∧ span.contains record.start = true) ∧
    (discovery.CoversBlocks blocks →
      (∀ c ∈ outcome.report.functions, discovery.bounds.contains c.start = true) ∧
      ∀ record ∈ outcome.table.records, discovery.bounds.contains record.start = true) := by
  intro outcome
  have ended : outcome = discovery.finished blocks := run_uncancelled discovery watch blocks table state going
  rw [ended]
  have functions := function_spanned discovery blocks
  have records : ∀ record ∈ (discovery.finished blocks).table.records,
      ∃ span, blocks.bounds? = some span ∧ span.contains record.start = true := by
    intro record member
    obtain ⟨c, present, starts⟩ := record_reported discovery blocks record member
    exact starts ▸ functions c present
  refine ⟨tentative_bounded discovery blocks, ⟨functions, records⟩, fun covers => ⟨?_, ?_⟩⟩
  · exact fun c member => covered_contains discovery blocks covers c.start (functions c member)
  · exact fun record member => covered_contains discovery blocks covers record.start (records record member)

theorem starts_contained_one_block :
    let discovery := oneWorker 0x400 [⟨0xc20, 0xc30, 0⟩]
    let outcome := (discovery.run Watch.never oneBlock {} ()).1
    outcome.report.cancelled = false ∧ discovery.CoversBlocks oneBlock ∧
      (∃ c ∈ outcome.report.functions, c.start = 0x1020 ∧ discovery.bounds.contains c.start = true) ∧
      ∃ record ∈ outcome.table.records, record.start = 0x1020 ∧ discovery.bounds.contains record.start = true := by
  intro discovery outcome
  have going : outcome.report.cancelled = false := never_cancelled discovery oneBlock {}
  have covers : discovery.CoversBlocks oneBlock := by
    intro span bounded
    obtain rfl : ⟨0x1000, 0x1040⟩ = span := Option.some.inj bounded
    decide
  obtain ⟨functions, records⟩ := (starts_contained discovery Watch.never oneBlock {} () going).2.2 covers
  have ended : outcome = discovery.finished oneBlock := run_never discovery oneBlock {}
  have present : .located oneBlock ⟨0x1020, 0x1030⟩ ∈ outcome.report.functions :=
    ended ▸ one_worker_reported 0x400 _ ⟨0xc20, 0xc30, 0⟩ List.mem_cons_self _ ⟨rfl, rfl⟩ (by decide)
  have single : ∀ c ∈ (discovery.finished oneBlock).report.functions, c.start = 0x1020 := by
    intro c member
    obtain ⟨range, ⟨⟨base, based, record, recorded, lies⟩, -⟩, rfl⟩ := (mem_functions discovery oneBlock c).mp member
    obtain rfl : 0x400 = base := Option.some.inj based
    obtain rfl := List.mem_singleton.mp recorded
    exact UInt64.toNat_inj.mp lies.1
  obtain ⟨record, taken, -⟩ := selected_holds none _ (functions_ascending discovery oneBlock) _ (ended ▸ present) 0x1030
    rfl (by decide) rfl
  rw [← (finished_selected discovery oneBlock).1] at taken
  obtain ⟨c, member, starts⟩ := record_reported discovery oneBlock record taken
  have recorded : record ∈ outcome.table.records := ended ▸ taken
  exact ⟨going, covers, ⟨_, present, rfl, functions _ present⟩,
    ⟨record, recorded, starts.symm.trans (single c member), records record recorded⟩⟩

-- Bounds that end before a recorded function starts do not keep it out.
theorem record_outside_bounds : ¬ ∀ (discovery : Discovery) (blocks : BlockMap) (table : FunctionTable),
    (∀ d ∈ (discovery.run Watch.never blocks table ()).1.report.tentative, discovery.bounds.contains d = true) ∧
    (∀ c ∈ (discovery.run Watch.never blocks table ()).1.report.functions,
      discovery.bounds.contains c.start = true) ∧
    ∀ record ∈ (discovery.run Watch.never blocks table ()).1.table.records,
      discovery.bounds.contains record.start = true := by
  intro contained
  let narrow : Discovery := { oneWorker 0 [⟨0x1020, 0x1030, 0⟩] with bounds := ⟨0x1000, 0x1010⟩ }
  obtain ⟨-, functions, -⟩ := contained narrow oneBlock {}
  rw [run_never] at functions
  have listed : narrow.Listed oneBlock ⟨0x1020, 0x1030⟩ :=
    ⟨⟨0, rfl, ⟨0x1020, 0x1030, 0⟩, List.mem_cons_self, rfl, rfl⟩, ⟨0, 1⟩, by decide, by decide⟩
  have inside := functions _ ((mem_functions narrow oneBlock _).mpr ⟨_, listed, rfl⟩)
  revert inside
  decide

end Discovery

end FunctionDiscovery
