import FunctionDiscovery.Candidate
import Mathlib.Data.List.Sort

set_option autoImplicit false

namespace FunctionDiscovery.Candidate

def StopBefore : Option Address → Option Address → Prop
  | none, some _ => True
  | some a, some b => a < b
  | _, none => False

def Before (a b : Candidate) : Prop :=
  a.start < b.start ∨ a.start = b.start ∧ StopBefore a.stop b.stop

theorem same_iff (a b : Candidate) : a.same b = true ↔ a.start = b.start ∧ a.stop = b.stop := by
  simp [same]

theorem same_refl (a : Candidate) : a.same a = true := by
  simp [same]

theorem same_comm (a b : Candidate) : a.same b = b.same a := by
  rw [Bool.eq_iff_iff, same_iff, same_iff, eq_comm, @eq_comm _ a.stop]

theorem same_congr (a b : Candidate) (equal : a.same b = true) (c : Candidate) : a.same c = b.same c := by
  obtain ⟨starts, stops⟩ := (same_iff a b).mp equal
  simp only [same, starts, stops]

theorem eq_of_same (a b : Candidate) (equal : a.same b = true) (blocks : a.blocks = b.blocks) : a = b := by
  obtain ⟨starts, stops⟩ := (same_iff a b).mp equal
  cases a
  cases b
  simp only [mk.injEq]
  exact ⟨starts, stops, blocks⟩

theorem stop_before_irrefl (stop : Option Address) : ¬ StopBefore stop stop := by
  cases stop with
  | none => exact id
  | some a => exact UInt64.lt_irrefl a

theorem stop_before_trans (a b c : Option Address) (first : StopBefore a b) (second : StopBefore b c) :
    StopBefore a c := by
  cases b with
  | none => cases a <;> exact first.elim
  | some b =>
    cases c with
    | none => exact second.elim
    | some c =>
      cases a with
      | none => trivial
      | some a => exact UInt64.lt_trans first second

theorem stop_before_total (a b : Option Address) (different : a ≠ b) : StopBefore a b ∨ StopBefore b a := by
  cases a with
  | none =>
    cases b with
    | none => exact absurd rfl different
    | some b => exact .inl trivial
  | some a =>
    cases b with
    | none => exact .inr trivial
    | some b => exact UInt64.lt_or_lt_of_ne fun equal => different (congrArg some equal)

theorem before_irrefl (a : Candidate) : ¬ Before a a := by
  rintro (less | ⟨_, less⟩)
  · exact UInt64.lt_irrefl _ less
  · exact stop_before_irrefl _ less

theorem before_trans (a b c : Candidate) (first : Before a b) (second : Before b c) : Before a c := by
  rcases first with first | ⟨sameFirst, first⟩
  · rcases second with second | ⟨sameSecond, second⟩
    · exact .inl (UInt64.lt_trans first second)
    · exact .inl (sameSecond ▸ first)
  · rcases second with second | ⟨sameSecond, second⟩
    · exact .inl (sameFirst ▸ second)
    · exact .inr ⟨sameFirst.trans sameSecond, stop_before_trans _ _ _ first second⟩

theorem before_total (a b : Candidate) (different : a.same b = false) : Before a b ∨ Before b a := by
  by_cases starts : a.start = b.start
  · have stops : a.stop ≠ b.stop := fun stops => by simp [same, starts, stops] at different
    rcases stop_before_total _ _ stops with less | less
    · exact .inl (.inr ⟨starts, less⟩)
    · exact .inr (.inr ⟨starts.symm, less⟩)
  · rcases UInt64.lt_or_lt_of_ne starts with less | less
    · exact .inl (.inl less)
    · exact .inr (.inl less)

theorem before_not_same (a b : Candidate) (less : Before a b) : a.same b = false := by
  rw [Bool.eq_false_iff]
  intro equal
  obtain ⟨starts, stops⟩ := (same_iff a b).mp equal
  rw [Before, starts, stops] at less
  exact less.elim (UInt64.lt_irrefl _) fun less => stop_before_irrefl _ less.2

instance : Std.Irrefl Before := ⟨before_irrefl⟩

instance : Std.Antisymm Before :=
  ⟨fun a b first second => absurd (before_trans a b a first second) (before_irrefl a)⟩

theorem compare_stops_lt (a b : Option Address) : compareStops a b = .lt ↔ StopBefore a b := by
  cases a <;> cases b <;> simp [compareStops, StopBefore, Std.compare_eq_lt]

theorem compare_stops_eq (a b : Option Address) : compareStops a b = .eq ↔ a = b := by
  cases a <;> cases b <;> simp [compareStops]

theorem le_iff (a b : Candidate) : a.le b = true ↔ Before a b ∨ a.same b = true := by
  rw [le, compare, Ordering.isLE_iff_eq_lt_or_eq_eq, Ordering.then_eq_lt, Ordering.then_eq_eq,
    Std.compare_eq_lt, Std.LawfulEqOrd.compare_eq_iff_eq, compare_stops_lt, compare_stops_eq, Before, same_iff]

theorem le_trans (a b c : Candidate) (first : a.le b = true) (second : b.le c = true) : a.le c = true := by
  rw [le_iff] at first second ⊢
  rcases first with first | first
  · rcases second with second | second
    · exact .inl (before_trans a b c first second)
    · obtain ⟨starts, stops⟩ := (same_iff b c).mp second
      left
      rwa [Before, ← starts, ← stops]
  · obtain ⟨starts, stops⟩ := (same_iff a b).mp first
    rwa [Before, same_iff, starts, stops, ← same_iff]

theorem le_total (a b : Candidate) : (a.le b || b.le a) = true := by
  rw [Bool.or_eq_true, le_iff, le_iff]
  cases equal : a.same b with
  | true => exact .inl (.inr rfl)
  | false => exact (before_total a b equal).imp .inl .inl

theorem sorted_le (candidates : List Candidate) :
    (candidates.mergeSort le).Pairwise fun a b => a.le b = true :=
  List.pairwise_mergeSort le_trans le_total candidates

theorem sorted_filter (c : Candidate) (candidates : List Candidate) :
    (candidates.mergeSort le).filter c.same = candidates.filter c.same := by
  -- The sort keeps every sublist that is in order, and candidates that are the same are in any order.
  have level : (candidates.filter c.same).Pairwise fun a b => a.le b = true := by
    refine List.pairwise_of_forall_mem_list fun a aMember b bMember => ?_
    have sameA := (List.mem_filter.mp aMember).2
    have sameB := (List.mem_filter.mp bMember).2
    exact (le_iff a b).mpr (.inr ((same_congr c a sameA b).symm.trans sameB))
  have kept := (List.sublist_mergeSort le_trans le_total level List.filter_sublist).filter c.same
  simp only [List.filter_filter, Bool.and_self] at kept
  have lengths := ((List.mergeSort_perm candidates le).filter c.same).length_eq
  exact (kept.eq_of_length lengths.symm).symm

theorem sorted_find (c : Candidate) (candidates : List Candidate) :
    (candidates.mergeSort le).find? c.same = candidates.find? c.same := by
  rw [← List.head?_filter, sorted_filter, List.head?_filter]

theorem distinct_after_ascending (last : Candidate) (rest : List Candidate)
    (sorted : (last :: rest).Pairwise fun a b => a.le b = true) :
    (last :: distinctAfter last rest).Pairwise Before := by
  induction rest generalizing last with
  | nil => exact List.pairwise_singleton _ _
  | cons c rest ih =>
    obtain ⟨below, tail⟩ := List.pairwise_cons.mp sorted
    cases equal : last.same c with
    | true =>
      rw [distinctAfter, if_pos equal]
      exact ih last (sorted.sublist ((List.sublist_cons_self c rest).cons_cons last))
    | false =>
      rw [distinctAfter, if_neg (by simp [equal])]
      have ascending := ih c tail
      have less : Before last c := by
        have atMost := (le_iff last c).mp (below c List.mem_cons_self)
        exact atMost.resolve_right (by simp [equal])
      refine List.pairwise_cons.mpr ⟨fun d member => ?_, ascending⟩
      rcases List.mem_cons.mp member with first | member
      · exact first ▸ less
      · exact before_trans last c d less (List.rel_of_pairwise_cons ascending member)

theorem distinct_ascending (candidates : List Candidate)
    (sorted : candidates.Pairwise fun a b => a.le b = true) : (distinct candidates).Pairwise Before := by
  cases candidates with
  | nil => exact .nil
  | cons c rest => exact distinct_after_ascending c rest sorted

theorem distinct_after_find (c last : Candidate) (rest : List Candidate) (different : c.same last = false) :
    (distinctAfter last rest).find? c.same = rest.find? c.same := by
  -- What is dropped is the same as the candidate kept last, and that one was not looked for.
  induction rest generalizing last with
  | nil => rfl
  | cons d rest ih =>
    cases equal : last.same d with
    | true =>
      have skipped : c.same d = false := by
        rw [same_comm, ← same_congr last d equal c, same_comm, different]
      rw [distinctAfter, if_pos equal, ih last different, List.find?_cons, skipped]
    | false =>
      rw [distinctAfter, if_neg (by simp [equal]), List.find?_cons, List.find?_cons]
      cases hit : c.same d with
      | true => rfl
      | false => exact ih d hit

theorem distinct_find (c : Candidate) (candidates : List Candidate) :
    (distinct candidates).find? c.same = candidates.find? c.same := by
  cases candidates with
  | nil => rfl
  | cons d rest =>
    rw [distinct, List.find?_cons, List.find?_cons]
    cases hit : c.same d with
    | true => rfl
    | false => exact distinct_after_find c d rest hit

theorem arrange_ascending (candidates : List Candidate) : (arrange candidates).Pairwise Before :=
  distinct_ascending _ (sorted_le candidates)

theorem arrange_find (c : Candidate) (candidates : List Candidate) :
    (arrange candidates).find? c.same = candidates.find? c.same := by
  rw [arrange, distinct_find, sorted_find]

theorem ascending_find (c : Candidate) (candidates : List Candidate) (ascending : candidates.Pairwise Before) :
    candidates.find? c.same = some c ↔ c ∈ candidates := by
  constructor
  · exact List.mem_of_find?_eq_some
  · intro member
    induction candidates with
    | nil => simp at member
    | cons d rest ih =>
      rw [List.find?_cons]
      rcases List.mem_cons.mp member with first | member
      · rw [← first, same_refl]
      · have less := List.rel_of_pairwise_cons ascending member
        rw [same_comm, before_not_same d c less]
        exact ih (List.Pairwise.of_cons ascending) member

theorem mem_arrange (c : Candidate) (candidates : List Candidate) :
    c ∈ arrange candidates ↔ candidates.find? c.same = some c := by
  rw [← arrange_find, ascending_find c _ (arrange_ascending candidates)]

def Settled (candidates : List Candidate) : Prop :=
  ∀ a ∈ candidates, ∀ b ∈ candidates, a.same b = true → a = b

theorem ascending_settled (candidates : List Candidate) (ascending : candidates.Pairwise Before) : Settled candidates := by
  intro a aMember b bMember equal
  have foundA := (ascending_find a candidates ascending).mpr aMember
  have foundB := (ascending_find b candidates ascending).mpr bMember
  rw [funext (same_congr a b equal), foundB] at foundA
  exact (Option.some.inj foundA).symm

theorem settled_mem_arrange (c : Candidate) (candidates : List Candidate) (settled : Settled candidates) :
    c ∈ arrange candidates ↔ c ∈ candidates := by
  rw [mem_arrange]
  constructor
  · exact List.mem_of_find?_eq_some
  · intro member
    cases found : candidates.find? c.same with
    | none => exact absurd (same_refl c) (List.find?_eq_none.mp found c member)
    | some d =>
      have equal : c.same d = true := List.find?_some found
      exact congrArg some (settled c member d (List.mem_of_find?_eq_some found) equal).symm

theorem mem_fold (c : Candidate) (candidates : List Candidate) :
    c ∈ fold candidates ↔ c ∈ candidates ∧
      (c.stop.isSome ∨ ¬ ∃ d ∈ candidates, d.stop.isSome ∧ d.start = c.start) := by
  simp [fold, isBounded]

theorem fold_ascending (candidates : List Candidate) (ascending : candidates.Pairwise Before) :
    (fold candidates).Pairwise Before :=
  ascending.filter _

end FunctionDiscovery.Candidate
