import FunctionDiscovery.Proofs.Commit
import FunctionDiscovery.Proofs.Statistics
import Mathlib.Algebra.BigOperators.Group.List.Basic

set_option autoImplicit false

namespace FunctionDiscovery

namespace Scope

def enters (scope : Scope) (block : Block) : Bool :=
  block.isCall && (scope.destination? block).any scope.bounds.contains

theorem edge_calls (scope : Scope) (block : Block) :
    (scope.edge block).stats.callEdges = if block.isCall then 1 else 0 := by
  rcases edge_cases scope block with ⟨quiet, edge⟩ | ⟨call, -, edge | edge⟩ | ⟨call, d, -, edge⟩
  · simp [quiet, edge, Edge.stats]
  · simp [call, edge, Edge.stats]
  · simp [call, edge, Edge.stats]
  · rw [edge, arrival]
    cases scope.bounds.contains d <;> simp [call, Edge.stats]

theorem edge_balance (scope : Scope) (block : Block) :
    (scope.edge block).stats.callEdges =
      (scope.edge block).stats.unreadablePointers + (scope.edge block).stats.unreadableTargets +
        (scope.edge block).stats.outOfBounds + if scope.enters block then 1 else 0 := by
  rw [enters]
  rcases edge_cases scope block with ⟨quiet, edge⟩ | ⟨call, lost, edge | edge⟩ | ⟨call, d, found, edge⟩
  · simp [quiet, edge, Edge.stats]
  · simp [lost, edge, Edge.stats]
  · simp [lost, edge, Edge.stats]
  · rw [edge, arrival]
    cases inside : scope.bounds.contains d <;> simp [call, found, inside, Edge.stats]

end Scope

theorem sum_count {α : Type} (test : α → Bool) (xs : List α) :
    (xs.map fun x => if test x then 1 else 0).sum = xs.countP test := by
  induction xs with
  | nil => rfl
  | cons x xs ih =>
    rw [List.map_cons, List.sum_cons, List.countP_cons, ih, Nat.add_comm]

namespace Discovery

section Calls

variable (discovery : Discovery) (blocks : BlockMap)

theorem calls_counted :
    (discovery.finished blocks).report.stats.scan.callEdges = blocks.toList.countP Block.isCall := by
  rw [finished_calls call_edges_counter]
  simp only [Scope.edge_calls]
  exact sum_count Block.isCall blocks.toList

theorem calls_balance :
    let scan := (discovery.finished blocks).report.stats.scan
    scan.callEdges = scan.unreadablePointers + scan.unreadableTargets + scan.outOfBounds +
      blocks.toList.countP (discovery.scope blocks).enters := by
  intro scan
  rw [finished_calls call_edges_counter, finished_calls unreadable_pointers_counter,
    finished_calls unreadable_targets_counter, finished_calls out_of_bounds_counter, ← sum_count,
    ← List.sum_map_add, ← List.sum_map_add, ← List.sum_map_add]
  simp only [← Scope.edge_balance]

end Calls

theorem commit_all_total (functions : List Candidate) (table : FunctionTable) (committed rejected : Nat) :
    (commitAll functions (table, committed, rejected)).2.1 + (commitAll functions (table, committed, rejected)).2.2 =
      committed + rejected + functions.length := by
  induction functions generalizing table committed rejected with
  | nil => rfl
  | cons c rest ih =>
    rw [commitAll, List.length_cons]
    cases commit? table c with
    | none =>
      rw [ih]
      omega
    | some larger =>
      rw [ih]
      omega

theorem finished_total (discovery : Discovery) (blocks : BlockMap) :
    (discovery.finished blocks).report.stats.committed + (discovery.finished blocks).report.stats.rejected =
      (discovery.finished blocks).report.functions.length := by
  have rejected : (discovery.finished blocks).report.stats.rejected =
      (commitAll (discovery.finished blocks).report.functions ({}, 0, 0)).2.2 := by
    simp only [finished, conclude]
  rw [(finished_commit discovery blocks).2, rejected, commit_all_total, Nat.zero_add]

theorem finished_steps (discovery : Discovery) (blocks : BlockMap) :
    (discovery.finished blocks).report.stats.shards = (discovery.finished blocks).progress.announced ∧
      (discovery.finished blocks).progress.made = (discovery.finished blocks).progress.announced := by
  simp only [finished, conclude, and_self]

theorem statistics_account {σ : Type} (discovery : Discovery) (watch : Watch σ) (blocks : BlockMap)
    (table : FunctionTable) (state : σ)
    (going : (discovery.run watch blocks table state).1.report.cancelled = false) :
    let outcome := (discovery.run watch blocks table state).1
    let stats := outcome.report.stats
    (stats.scan.callEdges = blocks.toList.countP Block.isCall ∧
      stats.scan.callEdges = stats.scan.unreadablePointers + stats.scan.unreadableTargets + stats.scan.outOfBounds +
        blocks.toList.countP (discovery.scope blocks).enters) ∧
    stats.scan.unresolved = outcome.report.functions.countP (fun c => c.blocks.isNone) ∧
    (stats.committed + stats.rejected = outcome.report.functions.length ∧ stats.committed = outcome.table.size) ∧
    outcome.blocks.claimedCount = blocks.claimedCount + stats.blocksClaimed ∧
    (stats.shards = outcome.progress.announced ∧ outcome.progress.made = outcome.progress.announced) := by
  intro outcome stats
  have ended : outcome = discovery.finished blocks := run_uncancelled discovery watch blocks table state going
  have same : stats = (discovery.finished blocks).report.stats := congrArg (fun ended => ended.report.stats) ended
  rw [ended, same]
  exact ⟨⟨calls_counted discovery blocks, calls_balance discovery blocks⟩, finished_unresolved discovery blocks,
    ⟨finished_total discovery blocks, (finished_selected discovery blocks).2.1⟩,
    finished_blocks_claimed discovery blocks, finished_steps discovery blocks⟩

def fourCalls : BlockMap :=
  ⟨#[.direct 0x1000 0x1010 0x1030, .direct 0x1010 0x1020 0x9000, .through 0x1020 0x1030 0x6000,
    .through 0x1030 0x1040 0x5000], by decide, by decide⟩

theorem statistics_account_four_calls :
    let memory := (Snapshot.mapPointer {} 0x5000 0x7000 .bits64).memory
    let discovery : Discovery :=
      ⟨⟨0x1000, 0x1040⟩, some 0x400, [⟨0xc00, 0xc20, 0⟩, ⟨0xc00, 0xc00, 0⟩], memory, 3, .bits64⟩
    let outcome := (discovery.run Watch.never fourCalls {} ()).1
    let stats := outcome.report.stats
    outcome.report.cancelled = false ∧ stats.scan.callEdges = 4 ∧
      4 = stats.scan.unreadablePointers + stats.scan.unreadableTargets + stats.scan.outOfBounds + 1 ∧
      stats.committed + stats.rejected = outcome.report.functions.length ∧
      outcome.blocks.claimedCount = stats.blocksClaimed := by
  intro memory discovery outcome stats
  have going : outcome.report.cancelled = false := never_cancelled discovery fourCalls {}
  obtain ⟨⟨calls, balance⟩, -, ⟨total, -⟩, claimed, -⟩ :=
    statistics_account discovery Watch.never fourCalls {} () going
  have four : fourCalls.toList.countP Block.isCall = 4 := by decide
  have entered : fourCalls.toList.countP (discovery.scope fourCalls).enters = 1 := by decide
  have unclaimed : fourCalls.claimedCount = 0 := by decide
  rw [calls, four, entered] at balance
  rw [unclaimed, Nat.zero_add] at claimed
  exact ⟨going, calls.trans four, balance, total, claimed⟩

end Discovery

end FunctionDiscovery
