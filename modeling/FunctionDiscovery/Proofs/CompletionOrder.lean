import FunctionDiscovery.Proofs.Sharding

set_option autoImplicit false

namespace FunctionDiscovery

theorem Stats.add_right_comm (a b c : Stats) : a + b + c = a + c + b := by
  change Stats.add (Stats.add a b) c = Stats.add (Stats.add a c) b
  simp only [Stats.add, Nat.add_right_comm]

theorem Candidate.arrange_order (arrived candidates : List Candidate) (order : arrived.Perm candidates)
    (settled : Candidate.Settled candidates) : Candidate.arrange arrived = Candidate.arrange candidates := by
  have arrivedSettled : Candidate.Settled arrived := fun a aMember b bMember =>
    settled a (order.mem_iff.mp aMember) b (order.mem_iff.mp bMember)
  refine (Candidate.arrange_ascending arrived).eq_of_mem_iff (Candidate.arrange_ascending candidates) fun c => ?_
  rw [Candidate.settled_mem_arrange c arrived arrivedSettled, Candidate.settled_mem_arrange c candidates settled,
    order.mem_iff]

namespace Discovery

theorem merged_stats_order (arrived scans : List Scan) (order : arrived.Perm scans) :
    mergedStats arrived = mergedStats scans :=
  order.foldl_eq' (fun one _ other _ total => Stats.add_right_comm total one.stats other.stats) {}

theorem claim_all_order (blocks : BlockMap) (arrived ranges : List IndexRange) (order : arrived.Perm ranges) :
    claimAll blocks arrived = claimAll blocks ranges := by
  have claimed : (claimAll blocks arrived).1 = (claimAll blocks ranges).1 := by
    apply BlockMap.eq_of_blocks
    intro index
    rw [claim_all_get, claim_all_get, order.any_eq]
  have one := claim_all_count blocks arrived
  have other := claim_all_count blocks ranges
  rw [claimed, other] at one
  exact Prod.ext claimed (Nat.add_left_cancel one).symm

theorem conclude_order (blocks : BlockMap) (count : Nat) (arrived scans : List Scan) (order : arrived.Perm scans)
    (settled : Candidate.Settled (scans.flatMap Scan.candidates)) :
    conclude blocks count arrived = conclude blocks count scans := by
  have stats := merged_stats_order arrived scans order
  have claims := claim_all_order blocks _ _ (order.flatMap_right Scan.claims)
  have candidates := Candidate.arrange_order _ _ (order.flatMap_right Scan.candidates) settled
  simp only [conclude, stats, claims, candidates]

theorem merged_in_any_order {σ : Type} (discovery : Discovery) (watch : Watch σ) (blocks : BlockMap) (state : σ)
    (going : (discovery.scanned watch blocks state).1.any Scan.cancelled = false) (arrived : List Scan)
    (order : arrived.Perm (discovery.scanned watch blocks state).1) :
    conclude blocks (discovery.shards blocks).length arrived =
        conclude blocks (discovery.shards blocks).length (discovery.scanned watch blocks state).1 ∧
      ∀ table, let outcome := (discovery.run Watch.never blocks table ()).1
        conclude blocks (discovery.shards blocks).length arrived = (outcome.report, outcome.blocks, outcome.table) := by
  have fits := Scan.partition_fits (discovery.scope blocks) discovery.workers
  have scans : (discovery.scanned watch blocks state).1 =
      (discovery.shards blocks).map (Scan.whole (discovery.scope blocks)) :=
    Scan.run_all_going (discovery.scope blocks) watch (discovery.shards blocks) state fits going
  rw [scans] at order ⊢
  have same := conclude_order blocks (discovery.shards blocks).length arrived _ order (gathered_settled discovery blocks)
  refine ⟨same, fun table => ?_⟩
  rw [same, run_never]
  rfl

theorem merged_in_any_order_reversed :
    let discovery := twoWorkers 0x400 [⟨0xc00, 0xc28, 0⟩, ⟨0xc24, 0xc30, 0⟩]
    let scans := (discovery.scanned Watch.never twoApart ()).1
    (discovery.shards twoApart).length = 2 ∧ scans.any Scan.cancelled = false ∧ scans.reverse.Perm scans ∧
      conclude twoApart 2 scans.reverse = conclude twoApart 2 scans := by
  intro discovery scans
  have fits := Scan.partition_fits (discovery.scope twoApart) discovery.workers
  have going : scans.any Scan.cancelled = false :=
    Scan.run_all_never (discovery.scope twoApart) (discovery.shards twoApart) fits
  have count : (discovery.shards twoApart).length = 2 := by decide
  have same := (merged_in_any_order discovery Watch.never twoApart () going scans.reverse scans.reverse_perm).1
  rw [count] at same
  exact ⟨count, going, scans.reverse_perm, same⟩

end Discovery

end FunctionDiscovery
