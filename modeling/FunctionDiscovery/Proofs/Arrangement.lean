import FunctionDiscovery.Proofs.CandidateOrder

set_option autoImplicit false

namespace FunctionDiscovery.Candidate

def key (c : Candidate) : Address × Option Address := (c.start, c.stop)

theorem same_key (c d : Candidate) : c.same d = decide (d.key = c.key) := by
  rw [Bool.eq_iff_iff, same_iff, decide_eq_true_iff, key, key, Prod.mk.injEq, eq_comm, @eq_comm _ c.stop]

theorem mem_keys (key : Address × Option Address) (candidates : List Candidate) :
    key ∈ candidates.map Candidate.key ↔ ∃ c ∈ candidates, c.start = key.1 ∧ c.stop = key.2 := by
  simp only [List.mem_map, Candidate.key, Prod.ext_iff]

theorem arrange_first (key : Address × Option Address) (candidates : List Candidate) :
    (arrange candidates).find? (fun d => d.key = key) = candidates.find? fun d => d.key = key := by
  have looked : Candidate.same ⟨key.1, key.2, none⟩ = fun d => decide (d.key = key) :=
    funext (same_key ⟨key.1, key.2, none⟩)
  have found := arrange_find ⟨key.1, key.2, none⟩ candidates
  rwa [looked] at found

theorem mem_arrange_first (c : Candidate) (candidates : List Candidate) :
    c ∈ arrange candidates ↔ (candidates.find? fun d => d.key = c.key) = some c := by
  rw [mem_arrange, funext (same_key c)]

theorem arrange_keys (key : Address × Option Address) (candidates : List Candidate) :
    key ∈ (arrange candidates).map Candidate.key ↔ key ∈ candidates.map Candidate.key := by
  have found (cs : List Candidate) : key ∈ cs.map Candidate.key ↔ (cs.find? fun d => d.key = key).isSome = true := by
    simp only [List.mem_map, List.find?_isSome, decide_eq_true_iff]
  rw [found, found, arrange_first]

theorem arrange_congr (xs ys : List Candidate) (agree : ∀ c : Candidate, xs.find? c.same = ys.find? c.same) :
    arrange xs = arrange ys := by
  refine (arrange_ascending xs).eq_of_mem_iff (arrange_ascending ys) fun c => ?_
  rw [mem_arrange, mem_arrange, agree]

theorem arrange_of_ascending (candidates : List Candidate) (ascending : candidates.Pairwise Before) :
    arrange candidates = candidates := by
  refine (arrange_ascending candidates).eq_of_mem_iff ascending fun c => ?_
  rw [mem_arrange, ascending_find c candidates ascending]

-- The shards of a run arrange what they found, and the merge arranges all of it again.
theorem arranged_in_parts (parts : List (List Candidate)) (candidates : List Candidate) :
    arrange (parts.flatMap arrange) = arrange parts.flatten ∧ (arrange candidates).Pairwise Before ∧
      (∀ key, key ∈ (arrange candidates).map Candidate.key ↔ key ∈ candidates.map Candidate.key) ∧
      ∀ c, c ∈ arrange candidates ↔ (candidates.find? fun d => d.key = c.key) = some c := by
  refine ⟨?_, arrange_ascending candidates, fun key => arrange_keys key candidates, fun c => mem_arrange_first c candidates⟩
  -- The first of the whole is the first of the first part that has one, and no part loses its first.
  apply arrange_congr
  intro c
  simp only [List.find?_flatMap, List.find?_flatten, arrange_find]

-- A choice by key takes all candidates under a key or none of them, so the first one stays the first.
theorem filter_arrange (keep : Address × Option Address → Bool) (candidates : List Candidate) :
    (arrange candidates).filter (fun c => keep c.key) = arrange (candidates.filter fun c => keep c.key) := by
  refine ((arrange_ascending candidates).filter _).eq_of_mem_iff (arrange_ascending _) fun c => ?_
  rw [List.mem_filter, mem_arrange_first, mem_arrange_first, List.find?_filter]
  cases kept : keep c.key with
  | true =>
    have looked : (fun d : Candidate => decide (keep d.key = true ∧ decide (d.key = c.key) = true)) =
        fun d => decide (d.key = c.key) := by
      funext d
      by_cases equal : d.key = c.key
      · simp [equal, kept]
      · simp [equal]
    rw [looked]
    exact and_iff_left rfl
  | false =>
    have missed : (candidates.find? fun d => decide (keep d.key = true ∧ decide (d.key = c.key) = true)) = none := by
      rw [List.find?_eq_none]
      intro d _ hit
      obtain ⟨taken, equal⟩ := of_decide_eq_true hit
      rw [of_decide_eq_true equal, kept] at taken
      exact Bool.false_ne_true taken
    rw [missed]
    simp

theorem bounded_iff (candidates : List Candidate) (start : Address) :
    isBounded candidates start = true ↔ ∃ stop, (start, some stop) ∈ candidates.map Candidate.key := by
  simp only [isBounded, List.any_eq_true, Bool.and_eq_true, Option.isSome_iff_exists, beq_iff_eq, mem_keys]
  constructor
  · rintro ⟨c, member, ⟨stop, known⟩, starts⟩
    exact ⟨stop, c, member, starts, known⟩
  · rintro ⟨stop, c, member, starts, known⟩
    exact ⟨c, member, ⟨stop, known⟩, starts⟩

theorem fold_arrange (candidates : List Candidate) : fold (arrange candidates) = arrange (fold candidates) := by
  have bounded : isBounded (arrange candidates) = isBounded candidates := by
    funext start
    rw [Bool.eq_iff_iff, bounded_iff, bounded_iff]
    simp only [arrange_keys]
  rw [fold, bounded]
  exact filter_arrange (fun key => key.2.isSome || !isBounded candidates key.1) candidates

theorem fold_fold (candidates : List Candidate) : fold (fold candidates) = fold candidates := by
  rw [fold, List.filter_eq_self]
  intro c member
  obtain ⟨-, known | alone⟩ := (mem_fold c candidates).mp member
  · simp [known]
  · have bare : isBounded (fold candidates) c.start = false := by
      rw [Bool.eq_false_iff, ne_eq, bounded_iff]
      rintro ⟨stop, listed⟩
      obtain ⟨d, dMember, starts, known⟩ := (mem_keys _ _).mp listed
      exact alone ⟨d, ((mem_fold d candidates).mp dMember).1, by simp [known], starts⟩
    simp [bare]

theorem fold_known (candidates : List Candidate) (start stop : Address) :
    (start, some stop) ∈ (fold candidates).map Candidate.key ↔ (start, some stop) ∈ candidates.map Candidate.key := by
  rw [mem_keys, mem_keys]
  constructor
  · rintro ⟨c, member, same⟩
    exact ⟨c, ((mem_fold c candidates).mp member).1, same⟩
  · rintro ⟨c, member, starts, known⟩
    exact ⟨c, (mem_fold c candidates).mpr ⟨member, .inl (by simp [known])⟩, starts, known⟩

theorem fold_unknown (candidates : List Candidate) (start : Address) :
    (start, none) ∈ (fold candidates).map Candidate.key ↔
      (start, none) ∈ candidates.map Candidate.key ∧ ∀ stop, (start, some stop) ∉ candidates.map Candidate.key := by
  simp only [mem_keys]
  constructor
  · rintro ⟨c, member, starts, unknown⟩
    obtain ⟨inside, known | alone⟩ := (mem_fold c candidates).mp member
    · simp [unknown] at known
    · refine ⟨⟨c, inside, starts, unknown⟩, ?_⟩
      rintro stop ⟨d, dMember, dStarts, known⟩
      exact alone ⟨d, dMember, by simp [known], dStarts.trans starts.symm⟩
  · rintro ⟨⟨c, member, starts, unknown⟩, alone⟩
    refine ⟨c, (mem_fold c candidates).mpr ⟨member, .inr ?_⟩, starts, unknown⟩
    rintro ⟨d, dMember, known, dStarts⟩
    obtain ⟨stop, known⟩ := Option.isSome_iff_exists.mp known
    exact alone stop ⟨d, dMember, dStarts.trans starts, known⟩

section Ascending

variable (candidates : List Candidate) (ascending : candidates.Pairwise Before) (start : Address)

include ascending

theorem single_of_unknown (c : Candidate) (member : c ∈ candidates) (starts : c.start = start) (unknown : c.stop = none)
    (alone : ∀ d ∈ candidates, d.start = start → d.stop = none) : candidates.filter (fun d => d.start = start) = [c] := by
  refine (ascending.filter _).eq_of_mem_iff (List.pairwise_singleton _ c) fun d => ?_
  rw [List.mem_filter, decide_eq_true_iff, List.mem_singleton]
  constructor
  · rintro ⟨dMember, dStarts⟩
    have equal : d.same c = true := (same_iff d c).mpr ⟨dStarts.trans starts.symm, (alone d dMember dStarts).trans unknown.symm⟩
    exact ascending_settled candidates ascending d dMember c member equal
  · rintro rfl
    exact ⟨member, starts⟩

theorem stops_distinct : ((candidates.filter fun d => d.start = start).map Candidate.stop).Nodup := by
  rw [List.Nodup, List.pairwise_map, List.pairwise_filter]
  refine ascending.imp fun {a b} less aStarts bStarts equal => ?_
  have starts : a.start = b.start := (of_decide_eq_true aStarts).trans (of_decide_eq_true bStarts).symm
  have different := before_not_same a b less
  rw [(same_iff a b).mpr ⟨starts, equal⟩] at different
  exact Bool.noConfusion different

end Ascending

theorem folded_either_way (candidates : List Candidate) :
    let result := fold (arrange candidates)
    arrange (fold candidates) = result ∧ arrange result = result ∧ fold result = result ∧
      (∀ start stop, (start, some stop) ∈ result.map Candidate.key ↔ (start, some stop) ∈ candidates.map Candidate.key) ∧
      (∀ start, (start, none) ∈ result.map Candidate.key ↔
        (start, none) ∈ candidates.map Candidate.key ∧ ∀ stop, (start, some stop) ∉ candidates.map Candidate.key) ∧
      ∀ start, (∃ c, result.filter (fun d => d.start = start) = [c] ∧ c.stop = none) ∨
        (∀ c ∈ result, c.start = start → c.stop.isSome) ∧
          ((result.filter fun d => d.start = start).map Candidate.stop).Nodup := by
  intro result
  have ascending : result.Pairwise Before := fold_ascending _ (arrange_ascending candidates)
  refine ⟨(fold_arrange candidates).symm, arrange_of_ascending result ascending, fold_fold _, ?_, ?_, ?_⟩
  · intro start stop
    rw [fold_known, arrange_keys]
  · intro start
    simp only [result, fold_unknown, arrange_keys]
  · intro start
    by_cases entry : (start, none) ∈ result.map Candidate.key
    · obtain ⟨c, member, starts, unknown⟩ := (mem_keys _ _).mp entry
      have alone := ((fold_unknown _ start).mp entry).2
      refine .inl ⟨c, single_of_unknown result ascending start c member starts unknown fun d dMember dStarts => ?_, unknown⟩
      cases known : d.stop with
      | none => rfl
      | some stop =>
        have listed := ((mem_fold d _).mp dMember).1
        exact absurd ((mem_keys _ _).mpr ⟨d, listed, dStarts, known⟩) (alone stop)
    · refine .inr ⟨fun c member starts => ?_, stops_distinct result ascending start⟩
      rw [Option.isSome_iff_ne_none]
      exact fun unknown => entry ((mem_keys _ _).mpr ⟨c, member, starts, unknown⟩)

end FunctionDiscovery.Candidate
