import FunctionDiscovery.CommandLine.Output
import FunctionDiscovery.Proofs.Commit

set_option autoImplicit false

namespace FunctionDiscovery

namespace Candidate

def Hollow (c : Candidate) : Prop := ∃ stop, c.stop = some stop ∧ stop ≤ c.start

theorem ascending_first (candidates : List Candidate) (ascending : candidates.Pairwise Before)
    (test : Candidate → Bool) (first c : Candidate) (found : candidates.find? test = some first)
    (member : c ∈ candidates) (passes : test c = true) : c = first ∨ first.Before c := by
  obtain ⟨-, earlier, later, split, failed⟩ := List.find?_eq_some_iff_append.mp found
  rw [split] at member ascending
  obtain ⟨-, tail, -⟩ := List.pairwise_append.mp ascending
  rcases List.mem_append.mp member with before | after
  · have fails : test c = false := by simpa using failed c before
    rw [fails] at passes
    exact absurd passes Bool.false_ne_true
  · rcases List.mem_cons.mp after with same | after
    · exact .inl same
    · exact .inr (List.rel_of_pairwise_cons tail after)

theorem hollow_before (a b : Candidate) (starts : a.start = b.start) (before : a.Before b) (stop : Address)
    (known : a.stop = some stop) (hollow : b.Hollow) : a.Hollow := by
  obtain ⟨other, ends, atMost⟩ := hollow
  rcases before with less | ⟨-, stops⟩
  · exact absurd less (starts ▸ UInt64.lt_irrefl _)
  · rw [known, ends] at stops
    exact ⟨stop, known, starts ▸ UInt64.le_trans (UInt64.le_of_lt stops) atMost⟩

end Candidate

namespace Discovery

variable (discovery : Discovery) (blocks : BlockMap)

theorem function_known (c : Candidate) (member : c ∈ (discovery.finished blocks).report.functions) :
    ∃ stop, c.stop = some stop := by
  obtain ⟨range, -, rfl⟩ := (mem_functions discovery blocks c).mp member
  exact ⟨range.stop, rfl⟩

theorem hollow_unresolved (c : Candidate) (member : c ∈ (discovery.finished blocks).report.functions)
    (hollow : c.Hollow) : c.blocks = none := by
  obtain ⟨range, -, rfl⟩ := (mem_functions discovery blocks c).mp member
  obtain ⟨stop, known, atMost⟩ := hollow
  obtain rfl : range.stop = stop := Option.some.inj known
  exact if_pos atMost

theorem record_source (functions : List Candidate) (record : Record) (member : record ∈ selected none functions) :
    ∃ c ∈ functions, c.start = record.start ∧ c.stop = some (record.last + 1) ∧
      Recorded (selected none functions) c := by
  obtain ⟨c, present, stop, known, -, rfl⟩ := selected_source none functions record member
  refine ⟨c, present, rfl, ?_, stop, known, member⟩
  rw [known, UInt64.sub_add_cancel]

end Discovery

namespace CommandLine

open Discovery

section Lookup

variable (discovery : Discovery) (blocks : BlockMap) (record : Record)

theorem shown_hollow (c : Candidate) (member : c ∈ (discovery.finished blocks).report.functions)
    (starts : c.start = record.start) (hollow : c.Hollow) :
    (shown (discovery.finished blocks).report record).blocks = none := by
  cases found : (discovery.finished blocks).report.functions.find? fun c => c.start == record.start with
  | none => simp [shown, found]
  | some first =>
    have present := List.mem_of_find?_eq_some found
    have firstStarts : first.start = record.start := by simpa using List.find?_some found
    have firstHollow : first.Hollow := by
      obtain ⟨stop, known⟩ := function_known discovery blocks first present
      rcases Candidate.ascending_first _ (functions_ascending discovery blocks) _ first c found member
        (by simpa using starts) with rfl | before
      · exact hollow
      · exact Candidate.hollow_before first c (firstStarts.trans starts.symm) before stop known hollow
    simp [shown, found, hollow_unresolved discovery blocks first present firstHollow]

theorem shown_solid (c : Candidate) (member : c ∈ (discovery.finished blocks).report.functions)
    (starts : c.start = record.start)
    (recorded : Recorded (selected none (discovery.finished blocks).report.functions) c)
    (solid : ∀ d ∈ (discovery.finished blocks).report.functions, d.start = record.start → ¬ d.Hollow) :
    (shown (discovery.finished blocks).report record).blocks = c.blocks.map IndexRange.length := by
  have hit : (c.start == record.start) = true := by simpa using starts
  have ascending := functions_ascending discovery blocks
  cases found : (discovery.finished blocks).report.functions.find? fun c => c.start == record.start with
  | none => exact absurd hit (List.find?_eq_none.mp found c member)
  | some first =>
    have present := List.mem_of_find?_eq_some found
    have firstStarts : first.start = record.start := by simpa using List.find?_some found
    rcases Candidate.ascending_first _ ascending _ first c found member hit with rfl | before
    · simp [shown, found]
    · -- A shorter function with the same start would have been taken in its place.
      obtain ⟨short, shortKnown⟩ := function_known discovery blocks first present
      obtain ⟨stop, known⟩ := function_known discovery blocks c member
      have filled : first.start < short := UInt64.not_le.mp fun atMost =>
        solid first present firstStarts ⟨short, shortKnown, atMost⟩
      have least := recorded_shortest _ ascending c stop known recorded first present short shortKnown
        (firstStarts.trans starts.symm) filled
      rcases before with less | ⟨-, stops⟩
      · exact absurd less (by rw [firstStarts, starts]; exact UInt64.lt_irrefl _)
      · rw [shortKnown, known] at stops
        exact absurd stops (UInt64.not_lt.mpr least)

end Lookup

theorem shown_size (functions : List Candidate) (report : Report) (record : Record)
    (member : record ∈ selected none functions) :
    record.start ≤ record.last ∧ (shown report record).size < UInt64.size := by
  obtain ⟨c, -, stop, -, filled, rfl⟩ := selected_source none functions record member
  refine ⟨(last_reaches c.start stop c.start filled).mpr filled, ?_⟩
  have next := last_to_nat c.start stop filled
  have bound := stop.toNat_lt_size
  dsimp only [shown]
  omega

theorem shown_for_committed {σ : Type} (discovery : Discovery) (watch : Watch σ) (blocks : BlockMap)
    (table : FunctionTable) (state : σ)
    (going : (discovery.run watch blocks table state).1.report.cancelled = false) (record : Record)
    (member : record ∈ (discovery.run watch blocks table state).1.table.records) :
    let report := (discovery.run watch blocks table state).1.report
    (∃ c ∈ report.functions, c.start = record.start ∧ c.stop = some (record.last + 1) ∧
      (∀ d ∈ report.functions, d.start = record.start → d.stop = some (record.last + 1) → d = c) ∧
      ((shown report record).blocks = c.blocks.map IndexRange.length ↔
        c.blocks = none ∨ ∀ d ∈ report.functions, d.start = record.start → ¬ d.Hollow) ∧
      ((∃ d ∈ report.functions, d.start = record.start ∧ d.Hollow) → (shown report record).blocks = none)) ∧
    record.start ≤ record.last ∧ (shown report record).size < UInt64.size := by
  intro report
  have ended := run_uncancelled discovery watch blocks table state going
  have reported : report = (discovery.finished blocks).report := congrArg Outcome.report ended
  rw [ended, (finished_selected discovery blocks).1] at member
  rw [reported]
  obtain ⟨c, present, starts, stops, recorded⟩ := record_source _ record member
  refine ⟨⟨c, present, starts, stops, ?_, ?_, ?_⟩, shown_size _ _ record member⟩
  · intro d other dStarts dStops
    have equal := (Candidate.same_iff d c).mpr ⟨dStarts.trans starts.symm, dStops.trans stops.symm⟩
    exact Candidate.ascending_settled _ (functions_ascending discovery blocks) d other c present equal
  · constructor
    · intro equal
      by_cases hidden : ∃ d ∈ (discovery.finished blocks).report.functions, d.start = record.start ∧ d.Hollow
      · obtain ⟨d, other, dStarts, hollow⟩ := hidden
        rw [shown_hollow discovery blocks record d other dStarts hollow] at equal
        exact .inl (Option.map_eq_none_iff.mp equal.symm)
      · exact .inr fun d other dStarts hollow => hidden ⟨d, other, dStarts, hollow⟩
    · intro fits
      by_cases solid : ∀ d ∈ (discovery.finished blocks).report.functions, d.start = record.start → ¬ d.Hollow
      · exact shown_solid discovery blocks record c present starts recorded solid
      · have unresolved : c.blocks = none := fits.resolve_right solid
        simp only [not_forall, not_not] at solid
        obtain ⟨d, other, dStarts, hollow⟩ := solid
        rw [shown_hollow discovery blocks record d other dStarts hollow, unresolved]
        rfl
  · intro hidden
    obtain ⟨d, other, dStarts, hollow⟩ := hidden
    exact shown_hollow discovery blocks record d other dStarts hollow

section Doubled

variable (base : Address) (empty filled : RuntimeFunction) (emptyAt : empty.LiesAt base ⟨0x1000, 0x1000⟩)
  (filledAt : filled.LiesAt base ⟨0x1000, 0x1020⟩)

include emptyAt in
theorem empty_reported :
    .located oneBlock ⟨0x1000, 0x1000⟩ ∈ ((oneWorker base [empty, filled]).finished oneBlock).report.functions :=
  one_worker_reported base _ empty List.mem_cons_self _ emptyAt (by decide)

include filledAt in
theorem filled_reported :
    .located oneBlock ⟨0x1000, 0x1020⟩ ∈ ((oneWorker base [empty, filled]).finished oneBlock).report.functions :=
  one_worker_reported base _ filled (List.mem_cons_of_mem _ List.mem_cons_self) _ filledAt (by decide)

include emptyAt filledAt in
theorem filled_committed :
    ⟨0x1000, 0x101f, true⟩ ∈ ((oneWorker base [empty, filled]).finished oneBlock).table.records := by
  have ascending := functions_ascending (oneWorker base [empty, filled]) oneBlock
  rw [(finished_selected _ oneBlock).1]
  obtain ⟨record, member, -⟩ := selected_holds none _ ascending _ (filled_reported base empty filled filledAt) 0x1020 rfl
    (by decide) rfl
  obtain ⟨c, present, stop, known, less, same⟩ := selected_source none _ record member
  obtain ⟨range, ⟨⟨other, based, entry, recorded, lies⟩, -⟩, rfl⟩ := (mem_functions _ oneBlock c).mp present
  obtain rfl : base = other := Option.some.inj based
  obtain rfl : range.stop = stop := Option.some.inj known
  rcases List.mem_pair.mp recorded with rfl | rfl
  · -- The empty one cannot be taken.
    obtain rfl := entry.lies_at_unique base _ _ lies emptyAt
    exact absurd less (UInt64.lt_irrefl _)
  · obtain rfl := entry.lies_at_unique base _ _ lies filledAt
    exact same ▸ member

end Doubled

theorem shown_for_committed_doubled :
    let discovery := oneWorker 0x400 [⟨0xc00, 0xc00, 0⟩, ⟨0xc00, 0xc20, 0⟩]
    let outcome := (discovery.run Watch.never oneBlock {} ()).1
    outcome.report.cancelled = false ∧ ⟨0x1000, 0x101f, true⟩ ∈ outcome.table.records ∧
      (shown outcome.report ⟨0x1000, 0x101f, true⟩).blocks = none := by
  intro discovery outcome
  have ended : outcome = discovery.finished oneBlock := run_never discovery oneBlock {}
  have going : outcome.report.cancelled = false := never_cancelled discovery oneBlock {}
  have member : ⟨0x1000, 0x101f, true⟩ ∈ outcome.table.records :=
    ended ▸ filled_committed 0x400 _ _ ⟨rfl, rfl⟩ ⟨rfl, rfl⟩
  have hollow : ∃ d ∈ outcome.report.functions, d.start = 0x1000 ∧ d.Hollow :=
    ⟨_, ended ▸ empty_reported 0x400 _ _ ⟨rfl, rfl⟩, rfl, 0x1000, rfl, by decide⟩
  obtain ⟨⟨c, -, -, -, -, -, hidden⟩, -⟩ :=
    shown_for_committed discovery Watch.never oneBlock {} () going ⟨0x1000, 0x101f, true⟩ member
  exact ⟨going, member, hidden hollow⟩

-- The function in the table covers a block, and none is shown.
theorem hollow_hides_blocks : ¬ ∀ (discovery : Discovery) (blocks : BlockMap) (record : Record) (c : Candidate),
    record ∈ (discovery.run Watch.never blocks {} ()).1.table.records →
    c ∈ (discovery.run Watch.never blocks {} ()).1.report.functions →
    c.start = record.start → c.stop = some (record.last + 1) →
    (shown (discovery.run Watch.never blocks {} ()).1.report record).blocks = c.blocks.map IndexRange.length := by
  intro counted
  let discovery := oneWorker 0 [⟨0x1000, 0x1000, 0⟩, ⟨0x1000, 0x1020, 0⟩]
  have hollow := empty_reported 0 ⟨0x1000, 0x1000, 0⟩ ⟨0x1000, 0x1020, 0⟩ ⟨rfl, rfl⟩
  have solid := filled_reported 0 ⟨0x1000, 0x1000, 0⟩ ⟨0x1000, 0x1020, 0⟩ ⟨rfl, rfl⟩
  have committed := filled_committed 0 ⟨0x1000, 0x1000, 0⟩ ⟨0x1000, 0x1020, 0⟩ ⟨rfl, rfl⟩ ⟨rfl, rfl⟩
  have blocks := counted discovery oneBlock ⟨0x1000, 0x101f, true⟩ _ (by rw [run_never]; exact committed)
    (by rw [run_never]; exact solid) rfl rfl
  rw [run_never, shown_hollow discovery oneBlock _ _ hollow rfl ⟨0x1000, rfl, by decide⟩] at blocks
  revert blocks
  decide

end CommandLine

end FunctionDiscovery
