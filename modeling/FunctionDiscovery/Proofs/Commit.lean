import FunctionDiscovery.Proofs.Cancellation
import FunctionDiscovery.Proofs.Table
import FunctionDiscovery.Snapshot

set_option autoImplicit false

namespace FunctionDiscovery

theorem last_to_nat (start stop : Address) (filled : start < stop) : (stop - 1).toNat + 1 = stop.toNat := by
  have positive : 0 < stop.toNat := Nat.lt_of_le_of_lt (Nat.zero_le _) (UInt64.lt_iff_toNat_lt.mp filled)
  have one : (1 : Address) ≤ stop := UInt64.le_iff_toNat_le.mpr positive
  rw [UInt64.toNat_sub_of_le _ _ one]
  exact Nat.sub_add_cancel positive

theorem last_reaches (start stop a : Address) (filled : start < stop) : a ≤ stop - 1 ↔ a < stop := by
  have next := last_to_nat start stop filled
  rw [UInt64.le_iff_toNat_le, UInt64.lt_iff_toNat_lt]
  omega

theorem last_before (start stop a : Address) (filled : start < stop) : stop - 1 < a ↔ stop ≤ a := by
  rw [← UInt64.not_le, last_reaches start stop a filled, UInt64.not_lt]

theorem Candidate.before_start (a b : Candidate) (before : a.Before b) : a.start ≤ b.start := by
  rcases before with less | ⟨same, -⟩
  · exact UInt64.le_of_lt less
  · exact same ▸ UInt64.le_refl _

namespace Discovery

def selected : Option Address → List Candidate → List Record
  | _, [] => []
  | reached, c :: rest =>
    match c.stop with
    | none => selected reached rest
    | some stop =>
      if c.start < stop ∧ reached.all (· ≤ c.start) then ⟨c.start, stop - 1, true⟩ :: selected (some stop) rest
      else selected reached rest

theorem selected_cases (reached : Option Address) (c : Candidate) (rest : List Candidate) :
    (∃ stop, c.stop = some stop ∧ c.start < stop ∧ reached.all (· ≤ c.start) = true ∧
      selected reached (c :: rest) = ⟨c.start, stop - 1, true⟩ :: selected (some stop) rest) ∨
    ((∀ stop, c.stop = some stop → c.start < stop → reached.all (· ≤ c.start) = false) ∧
      selected reached (c :: rest) = selected reached rest) := by
  cases known : c.stop with
  | none => exact .inr ⟨by simp, by rw [selected, known]⟩
  | some stop =>
    by_cases takes : c.start < stop ∧ reached.all (· ≤ c.start) = true
    · exact .inl ⟨stop, rfl, takes.1, takes.2, by simp only [selected, known, if_pos takes]⟩
    · refine .inr ⟨?_, by simp only [selected, known, if_neg takes]⟩
      rintro _ ⟨rfl⟩ filled
      exact Bool.eq_false_iff.mpr fun free => takes ⟨filled, free⟩

theorem selected_source (reached : Option Address) (functions : List Candidate) (record : Record)
    (member : record ∈ selected reached functions) :
    ∃ c ∈ functions, ∃ stop, c.stop = some stop ∧ c.start < stop ∧ record = ⟨c.start, stop - 1, true⟩ := by
  induction functions generalizing reached with
  | nil => simp [selected] at member
  | cons c rest ih =>
    have later (reached : Option Address) (member : record ∈ selected reached rest) :
        ∃ d ∈ c :: rest, ∃ stop, d.stop = some stop ∧ d.start < stop ∧ record = ⟨d.start, stop - 1, true⟩ := by
      obtain ⟨d, present, others⟩ := ih reached member
      exact ⟨d, List.mem_cons_of_mem _ present, others⟩
    rcases selected_cases reached c rest with ⟨stop, known, filled, -, taken⟩ | ⟨-, passed⟩
    · rw [taken] at member
      rcases List.mem_cons.mp member with same | member
      · exact ⟨c, List.mem_cons_self, stop, known, filled, same⟩
      · exact later _ member
    · rw [passed] at member
      exact later _ member

theorem selected_above (reached : Option Address) (functions : List Candidate) (record : Record)
    (member : record ∈ selected reached functions) : reached.all (· ≤ record.start) = true := by
  induction functions generalizing reached with
  | nil => simp [selected] at member
  | cons c rest ih =>
    rcases selected_cases reached c rest with ⟨stop, -, filled, free, taken⟩ | ⟨-, passed⟩
    · rw [taken] at member
      rcases List.mem_cons.mp member with rfl | member
      · exact free
      · have beyond : stop ≤ record.start := by simpa using ih (some stop) member
        rw [Option.all_eq_true] at free ⊢
        intro last same
        have atMost : last ≤ c.start := by simpa using free last same
        exact decide_eq_true (UInt64.le_trans atMost (UInt64.le_trans (UInt64.le_of_lt filled) beyond))
    · rw [passed] at member
      exact ih reached member

theorem selected_shortest (reached : Option Address) (functions : List Candidate)
    (ascending : functions.Pairwise Candidate.Before) (record : Record) (member : record ∈ selected reached functions)
    (c : Candidate) (present : c ∈ functions) (starts : c.start = record.start) (stop : Address)
    (known : c.stop = some stop) (filled : c.start < stop) : record.last < stop := by
  induction functions generalizing reached with
  | nil => simp at present
  | cons d rest ih =>
    obtain ⟨after, ascendingRest⟩ := List.pairwise_cons.mp ascending
    rcases selected_cases reached d rest with ⟨reach, ends, dFilled, -, taken⟩ | ⟨blocked, passed⟩
    · rw [taken] at member
      rcases List.mem_cons.mp member with rfl | member
      · apply (last_before d.start reach stop dFilled).mpr
        rcases List.mem_cons.mp present with rfl | present
        · rw [ends] at known
          exact Option.some.inj known ▸ UInt64.le_refl _
        · rcases after c present with less | ⟨-, stops⟩
          · exact absurd less (starts ▸ UInt64.lt_irrefl _)
          · rw [ends, known] at stops
            exact UInt64.le_of_lt stops
      · have beyond : reach ≤ record.start := by simpa using selected_above (some reach) rest record member
        rcases List.mem_cons.mp present with rfl | present
        · exact absurd (starts ▸ beyond) (UInt64.not_le.mpr dFilled)
        · exact ih (some reach) ascendingRest member present
    · rw [passed] at member
      rcases List.mem_cons.mp present with rfl | present
      · -- What keeps a function out also keeps out those after it with the same start.
        have free := selected_above reached rest record member
        rw [← starts, blocked stop known filled] at free
        exact absurd free Bool.false_ne_true
      · exact ih reached ascendingRest member present

-- A function that is not empty starts inside one that is taken, which may be itself.
theorem selected_holds (reached : Option Address) (functions : List Candidate)
    (ascending : functions.Pairwise Candidate.Before) (c : Candidate) (present : c ∈ functions) (stop : Address)
    (known : c.stop = some stop) (filled : c.start < stop) (free : reached.all (· ≤ c.start) = true) :
    ∃ record ∈ selected reached functions, record.Holds c.start := by
  induction functions generalizing reached with
  | nil => simp at present
  | cons d rest ih =>
    obtain ⟨after, ascendingRest⟩ := List.pairwise_cons.mp ascending
    rcases selected_cases reached d rest with ⟨reach, ends, dFilled, -, taken⟩ | ⟨blocked, passed⟩
    · rw [taken]
      by_cases inside : c.start < reach
      · have notBefore : d.start ≤ c.start := by
          rcases List.mem_cons.mp present with rfl | present
          · exact UInt64.le_refl _
          · exact Candidate.before_start d c (after c present)
        exact ⟨_, List.mem_cons_self, notBefore, (last_reaches d.start reach c.start dFilled).mpr inside⟩
      · have beyond : reach ≤ c.start := UInt64.not_lt.mp inside
        rcases List.mem_cons.mp present with rfl | present
        · exact absurd beyond (UInt64.not_le.mpr dFilled)
        · obtain ⟨record, member, holds⟩ := ih (some reach) ascendingRest present (by simpa using beyond)
          exact ⟨record, List.mem_cons_of_mem _ member, holds⟩
    · rw [passed]
      rcases List.mem_cons.mp present with rfl | present
      · rw [blocked stop known filled] at free
        exact absurd free Bool.false_ne_true
      · exact ih reached ascendingRest present free

-- How far the commit has come: what the table holds is in order, ends at the place reached, and does not
-- start later than anything that is still to come.
structure Committing (reached : Option Address) (records : List Record) (functions : List Candidate) : Prop where
  ordered : FunctionTable.Ordered records
  reaches : ∀ a, reached.all (· ≤ a) = true ↔ ∀ record ∈ records, record.last < a
  latest : ∀ record ∈ records, ∀ c ∈ functions, record.start ≤ c.start

theorem committing_none (functions : List Candidate) : Committing none [] functions :=
  ⟨FunctionTable.ordered_nil, by simp, by simp⟩

section Step

variable (reached : Option Address) (table : FunctionTable) (c : Candidate) (rest : List Candidate)
  (committing : Committing reached table.records (c :: rest))

include committing

theorem commit_taken (stop : Address) (known : c.stop = some stop) (filled : c.start < stop)
    (free : reached.all (· ≤ c.start) = true) :
    commit? table c = some ⟨table.records ++ [⟨c.start, stop - 1, true⟩]⟩ := by
  have positive : stop ≠ 0 := fun zero => UInt64.not_lt_zero (zero ▸ filled)
  rw [commit?, known]
  dsimp only
  rw [if_neg positive]
  exact FunctionTable.insert_past table _ committing.ordered
    ((last_reaches c.start stop c.start filled).mpr filled) ((committing.reaches c.start).mp free)

theorem commit_passed
    (blocked : ∀ stop, c.stop = some stop → c.start < stop → reached.all (· ≤ c.start) = false) :
    commit? table c = none := by
  cases known : c.stop with
  | none => rw [commit?, known]
  | some stop =>
    rw [commit?, known]
    dsimp only
    by_cases zero : stop = 0
    · rw [if_pos zero]
    · rw [if_neg zero]
      apply FunctionTable.insert_refused table _ committing.ordered
      · exact fun record member => committing.latest record member c List.mem_cons_self
      · by_cases filled : c.start < stop
        · right
          have short := mt (committing.reaches c.start).mpr (by simp [blocked stop known filled])
          simpa only [not_forall, UInt64.not_lt, exists_prop] using short
        · left
          have positive : 0 < stop := UInt64.pos_iff_ne_zero.mpr zero
          exact (last_before 0 stop c.start positive).mpr (UInt64.not_lt.mp filled)

theorem committing_passed : Committing reached table.records rest :=
  ⟨committing.ordered, committing.reaches,
    fun record member d later => committing.latest record member d (List.mem_cons_of_mem _ later)⟩

theorem committing_taken (after : ∀ d ∈ rest, c.Before d) (stop : Address) (filled : c.start < stop)
    (free : reached.all (· ≤ c.start) = true) :
    Committing (some stop) (table.records ++ [⟨c.start, stop - 1, true⟩]) rest := by
  have past := (committing.reaches c.start).mp free
  constructor
  · exact FunctionTable.ordered_append _ _ committing.ordered
      ((last_reaches c.start stop c.start filled).mpr filled) past
  · intro a
    rw [List.forall_mem_append, List.forall_mem_singleton, last_before c.start stop a filled, Option.all_some,
      decide_eq_true_iff]
    refine (and_iff_right_of_imp fun beyond record member => ?_).symm
    exact UInt64.lt_trans (past record member) (UInt64.lt_of_lt_of_le filled beyond)
  · intro record member d later
    rcases List.mem_append.mp member with old | new
    · exact committing.latest record old d (List.mem_cons_of_mem _ later)
    · rw [List.mem_singleton.mp new]
      exact Candidate.before_start c d (after d later)

end Step

theorem commit_all_selected (reached : Option Address) (table : FunctionTable) (functions : List Candidate)
    (committed rejected : Nat) (ascending : functions.Pairwise Candidate.Before)
    (committing : Committing reached table.records functions) :
    let result := commitAll functions (table, committed, rejected)
    result.1.records = table.records ++ selected reached functions ∧
      result.2.1 = committed + (selected reached functions).length ∧ FunctionTable.Ordered result.1.records := by
  induction functions generalizing reached table committed rejected with
  | nil => exact ⟨(List.append_nil _).symm, rfl, committing.ordered⟩
  | cons c rest ih =>
    obtain ⟨after, ascendingRest⟩ := List.pairwise_cons.mp ascending
    rcases selected_cases reached c rest with ⟨stop, known, filled, free, taken⟩ | ⟨blocked, passed⟩
    · obtain ⟨records, count, ordered⟩ := ih (some stop) _ (committed + 1) rejected ascendingRest
        (committing_taken reached table c rest committing after stop filled free)
      rw [commitAll, commit_taken reached table c rest committing stop known filled free, taken]
      refine ⟨?_, ?_, ordered⟩
      · rw [records, List.append_assoc, List.singleton_append]
      · rw [count, List.length_cons]
        omega
    · rw [commitAll, commit_passed reached table c rest committing blocked, passed]
      exact ih reached table committed (rejected + 1) ascendingRest
        (committing_passed reached table c rest committing)

section Finished

variable (discovery : Discovery) (blocks : BlockMap)

theorem finished_commit :
    (discovery.finished blocks).table =
        (commitAll (discovery.finished blocks).report.functions ({}, 0, 0)).1 ∧
      (discovery.finished blocks).report.stats.committed =
        (commitAll (discovery.finished blocks).report.functions ({}, 0, 0)).2.1 := by
  simp only [finished, conclude, and_self]

theorem finished_selected :
    (discovery.finished blocks).table.records = selected none (discovery.finished blocks).report.functions ∧
      (discovery.finished blocks).report.stats.committed = (discovery.finished blocks).table.size ∧
      FunctionTable.Ordered (discovery.finished blocks).table.records := by
  have ascending := functions_ascending discovery blocks
  obtain ⟨table, committed⟩ := finished_commit discovery blocks
  obtain ⟨records, count, ordered⟩ := commit_all_selected none {} _ 0 0 ascending (committing_none _)
  rw [List.nil_append] at records
  rw [Nat.zero_add, ← records] at count
  rw [table, committed]
  exact ⟨records, count, ordered⟩

end Finished

def Recorded (records : List Record) (c : Candidate) : Prop :=
  ∃ stop, c.stop = some stop ∧ ⟨c.start, stop - 1, true⟩ ∈ records

theorem recorded_filled (functions : List Candidate) (c : Candidate) (stop : Address) (known : c.stop = some stop)
    (recorded : Recorded (selected none functions) c) : c.start < stop := by
  obtain ⟨reach, ends, member⟩ := recorded
  obtain rfl : stop = reach := Option.some.inj (known.symm.trans ends)
  obtain ⟨d, -, other, -, filled, same⟩ := selected_source none functions _ member
  obtain ⟨starts, lasts, -⟩ := Record.mk.inj same
  rwa [starts, (UInt64.sub_left_inj 1).mp lasts]

theorem recorded_shortest (functions : List Candidate) (ascending : functions.Pairwise Candidate.Before)
    (c : Candidate) (stop : Address) (known : c.stop = some stop) (recorded : Recorded (selected none functions) c)
    (d : Candidate) (present : d ∈ functions) (other : Address) (ends : d.stop = some other)
    (starts : d.start = c.start) (filled : d.start < other) : stop ≤ other := by
  have less := recorded_filled functions c stop known recorded
  obtain ⟨reach, reached, member⟩ := recorded
  obtain rfl : stop = reach := Option.some.inj (known.symm.trans reached)
  have shorter := selected_shortest none functions ascending _ member d present starts other ends filled
  exact (last_before c.start stop other less).mp shorter

theorem refused_iff (functions : List Candidate) (ascending : functions.Pairwise Candidate.Before)
    (ordered : FunctionTable.Ordered (selected none functions)) (c : Candidate) (present : c ∈ functions)
    (stop : Address) (known : c.stop = some stop) :
    ¬ Recorded (selected none functions) c ↔ stop ≤ c.start ∨
      ∃ record ∈ selected none functions, record ≠ ⟨c.start, stop - 1, true⟩ ∧
        ∃ a, c.start ≤ a ∧ a < stop ∧ record.Holds a := by
  constructor
  · intro refused
    by_cases filled : c.start < stop
    · obtain ⟨record, member, holds⟩ := selected_holds none functions ascending c present stop known filled rfl
      have different : record ≠ ⟨c.start, stop - 1, true⟩ := fun same => refused ⟨stop, known, same ▸ member⟩
      exact .inr ⟨record, member, different, c.start, UInt64.le_refl _, filled, holds⟩
    · exact .inl (UInt64.not_lt.mp filled)
  · intro unfit recorded
    have filled := recorded_filled functions c stop known recorded
    rcases unfit with hollow | ⟨record, member, different, a, above, below, holds⟩
    · exact UInt64.not_le.mpr filled hollow
    · obtain ⟨reach, ends, own⟩ := recorded
      obtain rfl : stop = reach := Option.some.inj (known.symm.trans ends)
      have apart := (FunctionTable.ordered_disjoint _ ordered).forall member own different
      exact apart a ⟨holds, above, (last_reaches c.start stop a filled).mpr below⟩

theorem committed_left_to_right {σ : Type} (discovery : Discovery) (watch : Watch σ) (blocks : BlockMap)
    (table : FunctionTable) (state : σ)
    (going : (discovery.run watch blocks table state).1.report.cancelled = false) :
    let outcome := (discovery.run watch blocks table state).1
    outcome.table.records = selected none outcome.report.functions ∧
    ((∀ record ∈ outcome.table.records, record.start ≤ record.last) ∧
      outcome.table.records.Pairwise Record.Apart) ∧
    (∀ earlier, (discovery.run watch blocks earlier state).1 = outcome) ∧
    (∀ c ∈ outcome.report.functions, ∀ stop, c.stop = some stop → Recorded outcome.table.records c →
      c.start < stop ∧ ∀ d ∈ outcome.report.functions, ∀ other, d.stop = some other → d.start = c.start →
        d.start < other → stop ≤ other) ∧
    (∀ c ∈ outcome.report.functions, ∀ stop, c.stop = some stop → (¬ Recorded outcome.table.records c ↔
      stop ≤ c.start ∨ ∃ record ∈ outcome.table.records, record ≠ ⟨c.start, stop - 1, true⟩ ∧
        ∃ a, c.start ≤ a ∧ a < stop ∧ record.Holds a)) ∧
    outcome.report.stats.committed = outcome.table.size := by
  intro outcome
  have ended : outcome = discovery.finished blocks := run_uncancelled discovery watch blocks table state going
  have again (earlier : FunctionTable) : (discovery.run watch blocks earlier state).1 = discovery.finished blocks :=
    run_uncancelled discovery watch blocks earlier state
      ((cancelled_any_table discovery watch blocks table state earlier).trans going)
  obtain ⟨records, count, ordered⟩ := finished_selected discovery blocks
  have ascending := functions_ascending discovery blocks
  rw [ended]
  refine ⟨records, ⟨ordered.filled, FunctionTable.ordered_disjoint _ ordered⟩, again, ?_, ?_, count⟩
  · intro c _ stop known recorded
    rw [records] at recorded
    exact ⟨recorded_filled _ c stop known recorded, recorded_shortest _ ascending c stop known recorded⟩
  · intro c present stop known
    rw [records] at ordered ⊢
    exact refused_iff _ ascending ordered c present stop known

def oneBlock : BlockMap :=
  ⟨#[{ start := 0x1000, stop := 0x1040 }], by decide, by decide⟩

def oneWorker (base : Address) (records : List RuntimeFunction) : Discovery :=
  ⟨⟨0x1000, 0x1040⟩, some base, records, Snapshot.memory {}, 1, .bits64⟩

theorem one_worker_reported (base : Address) (records : List RuntimeFunction) (record : RuntimeFunction)
    (recorded : record ∈ records) (range : AddressRange) (lies : record.LiesAt base range)
    (spanned : oneBlock.spans ⟨0, 1⟩ range.start = true) :
    .located oneBlock range ∈ ((oneWorker base records).finished oneBlock).report.functions := by
  have shard : ⟨0, 1⟩ ∈ Shard.partition oneBlock.size 1 := by decide
  exact (mem_functions _ oneBlock _).mpr ⟨range, ⟨⟨base, rfl, record, recorded, lies⟩, ⟨0, 1⟩, shard, spanned⟩, rfl⟩

theorem committed_left_to_right_crowded :
    let discovery := oneWorker 0x400 [⟨0xc10, 0xc20, 0⟩, ⟨0xc00, 0xc20, 0⟩, ⟨0xc08, 0xc18, 0⟩,
      ⟨0xc00, 0xc10, 0⟩, ⟨0xc00, 0xc00, 0⟩]
    let outcome := (discovery.run Watch.never oneBlock ⟨[⟨0x9000, 0x900f, false⟩]⟩ ()).1
    outcome.report.cancelled = false ∧ outcome.table.records = selected none outcome.report.functions ∧
      (discovery.run Watch.never oneBlock {} ()).1 = outcome ∧
      outcome.report.stats.committed = outcome.table.size := by
  intro discovery outcome
  have going : outcome.report.cancelled = false := never_cancelled discovery oneBlock _
  obtain ⟨records, -, again, -, -, count⟩ :=
    committed_left_to_right discovery Watch.never oneBlock ⟨[⟨0x9000, 0x900f, false⟩]⟩ () going
  exact ⟨going, records, again {}, count⟩

end Discovery

end FunctionDiscovery
