import FunctionDiscovery.Keyed
import Mathlib.Data.List.Pairwise

set_option autoImplicit false

namespace FunctionDiscovery.Keyed

variable {α : Type}

def Ascending (key : α → Address) (xs : List α) : Prop :=
  xs.Pairwise fun lower upper => key lower < key upper

def Rising (key : α → Address) (xs : List α) : Prop := xs.Pairwise fun lower upper => key lower ≤ key upper

theorem ascending_rising (key : α → Address) (xs : List α) (ascending : Ascending key xs) : Rising key xs :=
  ascending.imp UInt64.le_of_lt

theorem floor_cons (key : α → Address) (a : Address) (x : α) (rest : List α) :
    floor? key a (x :: rest) = if key x ≤ a then (floor? key a rest).or (some x) else none := by
  by_cases below : key x ≤ a
  · simp only [floor?, List.takeWhile_cons, decide_eq_true below, if_true, if_pos below, List.getLast?_cons]
    cases (rest.takeWhile fun x => decide (key x ≤ a)).getLast? <;> rfl
  · simp [floor?, below]

theorem floor_mem (key : α → Address) (a : Address) (xs : List α) (x : α) (found : floor? key a xs = some x) :
    x ∈ xs ∧ key x ≤ a := by
  have member : x ∈ xs.takeWhile fun x => key x ≤ a := List.mem_of_getLast? found
  have below := List.all_eq_true.mp List.all_takeWhile x member
  exact ⟨(List.takeWhile_sublist _).subset member, of_decide_eq_true below⟩

theorem floor_highest (key : α → Address) (a : Address) (xs : List α) (x : α) (ascending : Ascending key xs)
    (member : x ∈ xs) (below : key x ≤ a) (highest : ∀ y ∈ xs, key y ≤ a → key y ≤ key x) :
    floor? key a xs = some x := by
  induction xs with
  | nil => simp at member
  | cons head rest ih =>
    obtain ⟨above, ascendingRest⟩ := List.pairwise_cons.mp ascending
    rw [floor_cons]
    cases List.mem_cons.mp member with
    | inl same =>
      -- Nothing after the head is stored at or before the address.
      have none : floor? key a rest = none := by
        cases found : floor? key a rest with
        | none => rfl
        | some y =>
          obtain ⟨later, yBelow⟩ := floor_mem key a rest y found
          have atMost := highest y (List.mem_cons_of_mem _ later) yBelow
          exact absurd (above y later) (UInt64.not_lt.mpr (same ▸ atMost))
      rw [none, ← same, if_pos below, Option.none_or]
    | inr present =>
      have headBelow : key head ≤ a := UInt64.le_trans (UInt64.le_of_lt (above x present)) below
      rw [if_pos headBelow, ih ascendingRest present fun y later => highest y (List.mem_cons_of_mem _ later),
        Option.some_or]

theorem floor_none (key : α → Address) (a : Address) (xs : List α) (rising : Rising key xs)
    (absent : floor? key a xs = none) : ∀ x ∈ xs, a < key x := by
  cases xs with
  | nil => simp
  | cons head rest =>
    have above := (List.pairwise_cons.mp rising).1
    by_cases below : key head ≤ a
    · simp [floor_cons, below] at absent
    · have first : a < key head := UInt64.not_le.mp below
      intro x member
      cases List.mem_cons.mp member with
      | inl same => exact same ▸ first
      | inr later => exact UInt64.lt_of_lt_of_le first (above x later)

theorem floor_top (key : α → Address) (a : Address) (xs : List α) (x : α) (rising : Rising key xs)
    (found : floor? key a xs = some x) : ∀ y ∈ xs, key y ≤ a → key y ≤ key x := by
  induction xs with
  | nil => simp
  | cons head rest ih =>
    obtain ⟨above, risingRest⟩ := List.pairwise_cons.mp rising
    intro y member below
    rw [floor_cons] at found
    by_cases headBelow : key head ≤ a
    · rw [if_pos headBelow] at found
      cases later : floor? key a rest with
      | some z =>
        rw [later, Option.some_or] at found
        obtain rfl := Option.some.inj found
        cases List.mem_cons.mp member with
        | inl same => exact same ▸ above z (floor_mem key a rest z later).1
        | inr present => exact ih risingRest later y present below
      | none =>
        rw [later, Option.none_or] at found
        obtain rfl := Option.some.inj found
        cases List.mem_cons.mp member with
        | inl same => exact same ▸ UInt64.le_refl _
        | inr present => exact absurd below (UInt64.not_le.mpr (floor_none key a rest risingRest later y present))
    · simp [headBelow] at found

theorem floor_iff (key : α → Address) (a : Address) (xs : List α) (x : α) (ascending : Ascending key xs) :
    floor? key a xs = some x ↔ x ∈ xs ∧ key x ≤ a ∧ ∀ y ∈ xs, key y ≤ a → key y ≤ key x := by
  constructor
  · intro found
    obtain ⟨member, below⟩ := floor_mem key a xs x found
    exact ⟨member, below, floor_top key a xs x (ascending_rising key xs ascending) found⟩
  · rintro ⟨member, below, highest⟩
    exact floor_highest key a xs x ascending member below highest

theorem insert_highest (key : α → Address) (fresh : α) (xs : List α) (highest : ∀ x ∈ xs, key x < key fresh) :
    insert key fresh xs = xs ++ [fresh] := by
  induction xs with
  | nil => rfl
  | cons x rest ih =>
    have less := highest x List.mem_cons_self
    have different : key fresh ≠ key x := (UInt64.ne_of_lt less).symm
    have notBefore : ¬ key fresh < key x := UInt64.not_lt.mpr (UInt64.le_of_lt less)
    rw [insert, if_neg different, if_neg notBefore, ih fun y member => highest y (List.mem_cons_of_mem _ member)]
    rfl

theorem insert_perm (key : α → Address) (fresh : α) (xs : List α) (absent : ∀ x ∈ xs, key x ≠ key fresh) :
    (insert key fresh xs).Perm (fresh :: xs) := by
  induction xs with
  | nil => exact .refl _
  | cons x rest ih =>
    have different : key fresh ≠ key x := (absent x List.mem_cons_self).symm
    rw [insert, if_neg different]
    by_cases less : key fresh < key x
    · rw [if_pos less]
    · rw [if_neg less]
      have later := ih fun y member => absent y (List.mem_cons_of_mem _ member)
      exact (later.cons x).trans (.swap fresh x rest)

theorem mem_insert (key : α → Address) (fresh y : α) (xs : List α) (ascending : Ascending key xs) :
    y ∈ insert key fresh xs ↔ y = fresh ∨ y ∈ xs ∧ key y ≠ key fresh := by
  induction xs with
  | nil => simp [insert]
  | cons x rest ih =>
    obtain ⟨above, ascendingRest⟩ := List.pairwise_cons.mp ascending
    by_cases same : key fresh = key x
    · have others (member : y ∈ rest) : key y ≠ key fresh :=
        same ▸ (UInt64.ne_of_lt (above y member)).symm
      rw [insert, if_pos same]
      grind
    · by_cases less : key fresh < key x
      · have others (member : y ∈ rest) : key y ≠ key fresh :=
          (UInt64.ne_of_lt (UInt64.lt_trans less (above y member))).symm
        rw [insert, if_neg same, if_pos less]
        grind
      · rw [insert, if_neg same, if_neg less, List.mem_cons, ih ascendingRest]
        grind

theorem insert_ascending (key : α → Address) (fresh : α) (xs : List α) (ascending : Ascending key xs) :
    Ascending key (insert key fresh xs) := by
  induction xs with
  | nil => exact List.pairwise_singleton _ _
  | cons x rest ih =>
    obtain ⟨above, ascendingRest⟩ := List.pairwise_cons.mp ascending
    by_cases same : key fresh = key x
    · rw [insert, if_pos same]
      exact List.pairwise_cons.mpr ⟨fun y member => same ▸ above y member, ascendingRest⟩
    · by_cases less : key fresh < key x
      · rw [insert, if_neg same, if_pos less]
        refine List.pairwise_cons.mpr ⟨fun y member => ?_, ascending⟩
        cases List.mem_cons.mp member with
        | inl first => exact first ▸ less
        | inr later => exact UInt64.lt_trans less (above y later)
      · rw [insert, if_neg same, if_neg less]
        refine List.pairwise_cons.mpr ⟨fun y member => ?_, ih ascendingRest⟩
        cases (mem_insert key fresh y rest ascendingRest).mp member with
        | inl new => exact new ▸ UInt64.lt_of_le_of_ne (UInt64.not_lt.mp less) (Ne.symm same)
        | inr old => exact above y old.1

theorem floor_insert_nearest (key : α → Address) (a : Address) (fresh : α) (xs : List α) (ascending : Ascending key xs)
    (below : key fresh ≤ a) (nearest : ∀ y ∈ xs, key y ≤ a → key y ≤ key fresh) :
    floor? key a (insert key fresh xs) = some fresh := by
  apply floor_highest key a _ fresh (insert_ascending key fresh xs ascending) _ below
  · intro y member yBelow
    cases (mem_insert key fresh y xs ascending).mp member with
    | inl new => exact new ▸ UInt64.le_refl _
    | inr old => exact nearest y old.1 yBelow
  · exact (mem_insert key fresh fresh xs ascending).mpr (.inl rfl)

-- An element shows only from its own address on, up to the next one that something is stored under.
theorem floor_insert_hidden (key : α → Address) (a : Address) (fresh : α) (xs : List α) (ascending : Ascending key xs)
    (hidden : a < key fresh ∨ ∃ y ∈ xs, key fresh < key y ∧ key y ≤ a) :
    floor? key a (insert key fresh xs) = floor? key a xs := by
  refine Option.ext fun x => ?_
  rw [floor_iff key a _ x (insert_ascending key fresh xs ascending), floor_iff key a xs x ascending]
  simp only [mem_insert key fresh _ xs ascending]
  -- Neither lookup finds the fresh element or the one it replaces: they lie above the address, or below a later
  -- element that does not.
  grind

end FunctionDiscovery.Keyed
