import FunctionDiscovery.Proofs.Findings

set_option autoImplicit false

namespace FunctionDiscovery

variable {σ : Type}

def Watch.noted (watch : Watch σ) : Watch (σ × List Bool) where
  touch a state := (watch.touch a state.1, state.2)
  poll state := ((watch.poll state.1).1, (watch.poll state.1).2, state.2 ++ [(watch.poll state.1).1])

theorem touch_all_noted (watch : Watch σ) (addresses : List Address) (state : σ) (notes : List Bool) :
    watch.noted.touchAll addresses (state, notes) = (watch.touchAll addresses state, notes) := by
  induction addresses generalizing state with
  | nil => rfl
  | cons a rest ih => exact ih (watch.touch a state)

namespace Scan

-- A scan asks once before each block it visits, and once more before the block it is stopped at.
theorem follow_noted (scope : Scope) (watch : Watch σ) (blocks : List Block) (state : σ) (notes : List Bool) :
    follow scope watch.noted blocks (state, notes) =
      (let followed := follow scope watch blocks state
      (followed.1, followed.2.1, followed.2.2, notes ++ (List.replicate followed.1.length false ++
        if followed.2.1 then [true] else []))) := by
  induction blocks generalizing state notes with
  | nil => simp [follow]
  | cons block rest ih =>
    cases answer : watch.poll state with
    | mk stop next =>
      cases stop with
      | true => simp [follow, Watch.noted, answer]
      | false =>
        have noted : watch.noted.poll (state, notes) = (false, next, notes ++ [false]) := by
          simp [Watch.noted, answer]
        simp only [follow, answer, noted, touch_all_noted, ih]
        simp [List.replicate_succ]

theorem run_noted (scope : Scope) (watch : Watch σ) (shard : IndexRange) (state : σ) (notes : List Bool)
    (fits : Fits scope shard) :
    ∃ answers, run scope watch.noted shard (state, notes) =
        ((run scope watch shard state).1, (run scope watch shard state).2, notes ++ answers) ∧
      (true ∈ answers ↔ (run scope watch shard state).1.cancelled = true) ∧
      ((run scope watch shard state).1.cancelled = false → answers.length = shard.length) := by
  rw [run_cancelled scope watch shard state fits, run_fits scope watch.noted shard _ fits,
    run_fits scope watch shard state fits, follow_noted]
  refine ⟨_, rfl, ?_, ?_⟩
  · cases (follow scope watch (shardBlocks scope shard) state).2.1 <;> simp
  · intro going
    have blocks : (shardBlocks scope shard).length = shard.length := by
      have reach : shard.stop ≤ scope.blocks.toList.length := fits.2
      simp only [shardBlocks, List.length_take, List.length_drop, IndexRange.length]
      omega
    simp [going, follow_going scope watch _ state going, blocks]

theorem run_all_noted (scope : Scope) (watch : Watch σ) (shards : List IndexRange) (state : σ) (notes : List Bool)
    (fits : ∀ shard ∈ shards, Fits scope shard) :
    ∃ answers, runAll scope watch.noted shards (state, notes) =
        ((runAll scope watch shards state).1, (runAll scope watch shards state).2, notes ++ answers) ∧
      (true ∈ answers ↔ (runAll scope watch shards state).1.any Scan.cancelled = true) ∧
      ((runAll scope watch shards state).1.any Scan.cancelled = false →
        answers.length = (shards.map IndexRange.length).sum) := by
  induction shards generalizing state notes with
  | nil => exact ⟨[], by simp [runAll]⟩
  | cons shard rest ih =>
    obtain ⟨first, ran, stopped, asked⟩ := run_noted scope watch shard state notes (fits shard List.mem_cons_self)
    obtain ⟨others, allRan, anyStopped, allAsked⟩ := ih (run scope watch shard state).2 (notes ++ first)
      fun shard member => fits shard (List.mem_cons_of_mem _ member)
    refine ⟨first ++ others, ?_, ?_, ?_⟩
    · rw [run_all_cons, run_all_cons, ran]
      dsimp only
      rw [allRan, List.append_assoc]
    · rw [run_all_cons, List.mem_append, stopped, anyStopped, List.any_cons, Bool.or_eq_true]
    · intro going
      rw [run_all_cons, List.any_cons, Bool.or_eq_false_iff] at going
      rw [List.length_append, asked going.1, allAsked going.2, List.map_cons, List.sum_cons]

end Scan

namespace Discovery

section Noted

variable (discovery : Discovery) (watch : Watch σ) (blocks : BlockMap) (table : FunctionTable) (state : σ)

theorem scanned_noted :
    ∃ answers, discovery.scanned watch.noted blocks (state, []) =
        ((discovery.scanned watch blocks state).1, (discovery.scanned watch blocks state).2, answers) ∧
      (true ∈ answers ↔ (discovery.scanned watch blocks state).1.any Scan.cancelled = true) ∧
      ((discovery.scanned watch blocks state).1.any Scan.cancelled = false → answers.length = blocks.size) := by
  obtain ⟨answers, ran, stopped, asked⟩ := Scan.run_all_noted (discovery.scope blocks) watch (discovery.shards blocks)
    state [] (Scan.partition_fits (discovery.scope blocks) discovery.workers)
  have lengths := Shard.chained_lengths _ _ _ (Shard.partition_chained blocks.size discovery.workers)
  refine ⟨answers, ran, stopped, fun going => (asked going).trans ?_⟩
  rwa [Nat.zero_add] at lengths

theorem run_noted :
    ∃ answers, discovery.run watch.noted blocks table (state, []) =
        ((discovery.run watch blocks table state).1, (discovery.run watch blocks table state).2, answers) ∧
      (true ∈ answers ↔ (discovery.run watch blocks table state).1.report.cancelled = true) ∧
      ((discovery.run watch blocks table state).1.report.cancelled = false → answers.length = blocks.size + 1) := by
  obtain ⟨answers, ran, stopped, asked⟩ := scanned_noted discovery watch blocks state
  -- A stopped scan is not followed by another question; otherwise the last answer decides.
  cases scans : (discovery.scanned watch blocks state).1.any Scan.cancelled with
  | true =>
    rw [run_scan_stopped discovery watch blocks table state scans,
      run_scan_stopped discovery watch.noted blocks table _ (by rw [ran]; exact scans), ran]
    exact ⟨answers, rfl, by simp [stopped, scans, interrupted], by simp [interrupted]⟩
  | false =>
    have silent : true ∉ answers := by simp [stopped, scans]
    have going : (discovery.scanned watch.noted blocks (state, [])).1.any Scan.cancelled = false := by
      rw [ran]
      exact scans
    have last : watch.noted.poll (discovery.scanned watch.noted blocks (state, [])).2 =
        ((watch.poll (discovery.scanned watch blocks state).2).1, (watch.poll (discovery.scanned watch blocks state).2).2,
          answers ++ [(watch.poll (discovery.scanned watch blocks state).2).1]) := by
      rw [ran]
      rfl
    cases answer : (watch.poll (discovery.scanned watch blocks state).2).1 with
    | true =>
      rw [run_join_stopped discovery watch blocks table state scans answer,
        run_join_stopped discovery watch.noted blocks table _ going (by rw [last]; exact answer), last, ran]
      exact ⟨_, rfl, by simp [answer, interrupted], by simp [interrupted]⟩
    | false =>
      rw [run_finished discovery watch blocks table state scans answer,
        run_finished discovery watch.noted blocks table _ going (by rw [last]; exact answer), last]
      refine ⟨_, rfl, ?_, fun _ => ?_⟩
      · simp [answer, silent, finished, conclude]
      · rw [List.length_append, asked scans, List.length_singleton]

theorem run_outcome :
    (∃ scans, (discovery.run watch blocks table state).1 = discovery.interrupted blocks table scans) ∨
      (discovery.run watch blocks table state).1 = discovery.finished blocks := by
  cases scans : (discovery.scanned watch blocks state).1.any Scan.cancelled with
  | true => exact .inl ⟨_, congrArg Prod.fst (run_scan_stopped discovery watch blocks table state scans)⟩
  | false =>
    cases answer : (watch.poll (discovery.scanned watch blocks state).2).1 with
    | true => exact .inl ⟨_, congrArg Prod.fst (run_join_stopped discovery watch blocks table state scans answer)⟩
    | false => exact .inr (congrArg Prod.fst (run_finished discovery watch blocks table state scans answer))

theorem run_uncancelled (going : (discovery.run watch blocks table state).1.report.cancelled = false) :
    (discovery.run watch blocks table state).1 = discovery.finished blocks := by
  rcases run_outcome discovery watch blocks table state with ⟨scans, ended⟩ | ended
  · simp [ended, interrupted] at going
  · exact ended

theorem cancelled_any_table (earlier : FunctionTable) :
    (discovery.run watch blocks earlier state).1.report.cancelled =
      (discovery.run watch blocks table state).1.report.cancelled := by
  cases scans : (discovery.scanned watch blocks state).1.any Scan.cancelled with
  | true =>
    rw [run_scan_stopped discovery watch blocks earlier state scans,
      run_scan_stopped discovery watch blocks table state scans]
    rfl
  | false =>
    cases answer : (watch.poll (discovery.scanned watch blocks state).2).1 with
    | true =>
      rw [run_join_stopped discovery watch blocks earlier state scans answer,
        run_join_stopped discovery watch blocks table state scans answer]
      rfl
    | false =>
      rw [run_finished discovery watch blocks earlier state scans answer,
        run_finished discovery watch blocks table state scans answer]

end Noted

-- The answers of the watch are arbitrary, so they also stand for every way in which shards that run side by side
-- may see a flag change.
theorem stopped_all_or_nothing (discovery : Discovery) (watch : Watch σ) (blocks : BlockMap) (table : FunctionTable)
    (state : σ) :
    let outcome := (discovery.run watch blocks table state).1
    let noted := discovery.run watch.noted blocks table (state, [])
    noted.1 = outcome ∧
    (outcome.report.cancelled = true ↔ true ∈ noted.2.2) ∧
    (outcome.report.cancelled = true →
      outcome.table = table ∧ outcome.blocks = blocks ∧ outcome.refreshes = 0 ∧
      outcome.report.functions = [] ∧ outcome.report.tentative = [] ∧ outcome.report.stats.blocksClaimed = 0 ∧
      outcome.report.stats.committed = 0 ∧ outcome.report.stats.rejected = 0) ∧
    (outcome.report.cancelled = false →
      outcome = (discovery.run Watch.never blocks table ()).1 ∧ outcome.refreshes = 1 ∧
      noted.2.2.length = blocks.size + 1) := by
  intro outcome noted
  obtain ⟨answers, ran, stopped, asked⟩ := run_noted discovery watch blocks table state
  have notes : noted = (outcome, (discovery.run watch blocks table state).2, answers) := ran
  rw [notes]
  refine ⟨rfl, stopped.symm, ?_, ?_⟩
  · intro cancelled
    rcases run_outcome discovery watch blocks table state with ⟨scans, ended⟩ | ended
    · have ended : outcome = discovery.interrupted blocks table scans := ended
      rw [ended]
      exact ⟨rfl, rfl, rfl, rfl, rfl, rfl, rfl, rfl⟩
    · have ended : outcome = discovery.finished blocks := ended
      simp [ended, finished, conclude] at cancelled
  · intro going
    rcases run_outcome discovery watch blocks table state with ⟨scans, ended⟩ | ended
    · have ended : outcome = discovery.interrupted blocks table scans := ended
      simp [ended, interrupted] at going
    · have ended : outcome = discovery.finished blocks := ended
      exact ⟨ended.trans (run_never discovery blocks table).symm, congrArg Outcome.refreshes ended, asked going⟩

end Discovery

end FunctionDiscovery
