import FunctionDiscovery.Proofs.Spans

set_option autoImplicit false

namespace FunctionDiscovery

section FirstAt

variable {α : Type}

def FirstAt (bad : α → Prop) (xs : List α) (index : Nat) (x : α) : Prop :=
  xs[index]? = some x ∧ bad x ∧ ∀ y ∈ xs.take index, ¬ bad y

variable (bad : α → Prop)

theorem first_mem (xs : List α) (index : Nat) (x : α) (first : FirstAt bad xs index x) : x ∈ xs ∧ bad x :=
  ⟨List.mem_of_getElem? first.1, first.2.1⟩

theorem first_nil (index : Nat) (x : α) : ¬ FirstAt bad [] index x := fun first =>
  List.not_mem_nil (first_mem bad [] index x first).1

theorem first_here (x : α) (xs : List α) (hit : bad x) (index : Nat) (y : α) :
    FirstAt bad (x :: xs) index y ↔ index = 0 ∧ y = x := by
  cases index with
  | zero =>
    constructor
    · rintro ⟨access, -, -⟩
      exact ⟨rfl, (Option.some.inj access).symm⟩
    · rintro ⟨-, rfl⟩
      exact ⟨rfl, hit, fun _ member => absurd member List.not_mem_nil⟩
  | succ index =>
    constructor
    · rintro ⟨-, -, before⟩
      exact absurd hit (before x List.mem_cons_self)
    · rintro ⟨impossible, -⟩
      cases impossible

theorem first_later (x : α) (xs : List α) (missed : ¬ bad x) (index : Nat) (y : α) :
    FirstAt bad (x :: xs) index y ↔ ∃ place, index = place + 1 ∧ FirstAt bad xs place y := by
  cases index with
  | zero =>
    constructor
    · rintro ⟨access, hit, -⟩
      exact absurd (Option.some.inj access ▸ hit) missed
    · rintro ⟨place, impossible, -⟩
      cases impossible
  | succ index =>
    constructor
    · rintro ⟨access, hit, before⟩
      exact ⟨index, rfl, access, hit, fun z member => before z (List.mem_cons_of_mem x member)⟩
    · rintro ⟨place, same, access, hit, before⟩
      obtain rfl := Nat.succ.inj same
      refine ⟨access, hit, fun z member => ?_⟩
      rcases List.mem_cons.mp member with rfl | member
      · exact missed
      · exact before z member

-- The same with indices counted from an offset, the way the searches carry them.
def FirstFrom (offset : Nat) (xs : List α) (index : Nat) (x : α) : Prop :=
  ∃ place, index = offset + place ∧ FirstAt bad xs place x

theorem first_from_zero (xs : List α) (index : Nat) (x : α) : FirstFrom bad 0 xs index x ↔ FirstAt bad xs index x := by
  simp [FirstFrom]

theorem first_from_nil (offset index : Nat) (x : α) : ¬ FirstFrom bad offset [] index x := by
  rintro ⟨place, -, first⟩
  exact first_nil bad place x first

theorem first_from_here (x : α) (xs : List α) (hit : bad x) (offset index : Nat) (y : α) :
    FirstFrom bad offset (x :: xs) index y ↔ index = offset ∧ y = x := by
  simp only [FirstFrom, first_here bad x xs hit]
  constructor
  · rintro ⟨_, rfl, rfl, rfl⟩
    exact ⟨rfl, rfl⟩
  · rintro ⟨rfl, rfl⟩
    exact ⟨0, rfl, rfl, rfl⟩

theorem first_from_later (x : α) (xs : List α) (missed : ¬ bad x) (offset index : Nat) (y : α) :
    FirstFrom bad offset (x :: xs) index y ↔ FirstFrom bad (offset + 1) xs index y := by
  simp only [FirstFrom, first_later bad x xs missed]
  constructor
  · rintro ⟨_, rfl, place, rfl, first⟩
    exact ⟨place, by omega, first⟩
  · rintro ⟨place, rfl, first⟩
    exact ⟨place + 1, by omega, place, rfl, first⟩

end FirstAt

namespace BlockMap

def Hollow (block : Block) : Prop := block.stop ≤ block.start

def Crossing (pair : Block × Block) : Prop := pair.2.start < pair.1.stop

def Filled (blocks : List Block) : Prop := ∀ block ∈ blocks, block.start < block.stop

def Stacked (blocks : List Block) : Prop :=
  ∀ (i j : Nat) (lower upper : Block), i < j → blocks[i]? = some lower → blocks[j]? = some upper → lower.stop ≤ upper.start

def FirstFault (blocks : List Block) : Fault → Prop
  | .emptyRange index block => FirstAt Hollow blocks index block
  | .overlap index lower upper => Filled blocks ∧ FirstAt Crossing (blocks.zip blocks.tail) index (lower, upper)

theorem first_empty_iff (offset : Nat) (blocks : List Block) (index : Nat) (block : Block) :
    firstEmpty? offset blocks = some (index, block) ↔ FirstFrom Hollow offset blocks index block := by
  induction blocks generalizing offset with
  | nil => simp [firstEmpty?, first_from_nil]
  | cons head tail ih =>
    rw [firstEmpty?]
    by_cases less : head.start < head.stop
    · have missed : ¬ Hollow head := UInt64.not_le.mpr less
      rw [if_pos less, ih, first_from_later Hollow head tail missed]
    · have hit : Hollow head := UInt64.not_lt.mp less
      rw [if_neg less, first_from_here Hollow head tail hit, Option.some.injEq, Prod.mk.injEq, eq_comm, @eq_comm _ head]

theorem first_overlap_iff (offset : Nat) (blocks : List Block) (index : Nat) (lower upper : Block) :
    firstOverlap? offset blocks = some (index, lower, upper) ↔
      FirstFrom Crossing offset (blocks.zip blocks.tail) index (lower, upper) := by
  induction blocks generalizing offset with
  | nil => simp [firstOverlap?, first_from_nil]
  | cons first tail ih =>
    cases tail with
    | nil => simp [firstOverlap?, first_from_nil]
    | cons second rest =>
      rw [firstOverlap?, List.tail_cons, List.zip_cons_cons]
      by_cases below : first.stop ≤ second.start
      · have missed : ¬ Crossing (first, second) := UInt64.not_lt.mpr below
        rw [if_pos below, ih, first_from_later Crossing _ _ missed]
        rfl
      · have hit : Crossing (first, second) := UInt64.not_le.mp below
        rw [if_neg below, first_from_here Crossing _ _ hit, Option.some.injEq, Prod.mk.injEq, eq_comm, @eq_comm _ (first, second)]

theorem first_empty_none (blocks : List Block) : firstEmpty? 0 blocks = none ↔ Filled blocks := by
  constructor
  · exact filled_of_firstEmpty? 0 blocks
  · intro filled
    cases found : firstEmpty? 0 blocks with
    | none => rfl
    | some place =>
      have first := (first_from_zero Hollow _ _ _).mp ((first_empty_iff 0 blocks place.1 place.2).mp found)
      obtain ⟨member, hollow⟩ := first_mem Hollow blocks place.1 place.2 first
      exact absurd (filled place.2 member) (UInt64.not_lt.mpr hollow)

theorem of_list_cases (blocks : List Block) :
    (∃ index block, ofList blocks = .error (.emptyRange index block) ∧ firstEmpty? 0 blocks = some (index, block)) ∨
    (∃ index lower upper, ofList blocks = .error (.overlap index lower upper) ∧ firstEmpty? 0 blocks = none ∧
      firstOverlap? 0 blocks = some (index, lower, upper)) ∨
    ∃ map, ofList blocks = .ok map ∧ firstEmpty? 0 blocks = none ∧ firstOverlap? 0 blocks = none ∧ map.toList = blocks := by
  rw [ofList, ofArray]
  split
  · rename_i index block found
    exact .inl ⟨index, block, rfl, found⟩
  · rename_i empty
    split
    · rename_i index lower upper found
      exact .inr (.inl ⟨index, lower, upper, rfl, empty, found⟩)
    · rename_i clear
      exact .inr (.inr ⟨_, rfl, empty, clear, rfl⟩)

theorem of_list_kept (blocks : List Block) (map : BlockMap) (taken : ofList blocks = .ok map) : map.toList = blocks := by
  obtain ⟨index, block, refused, -⟩ | ⟨index, lower, upper, refused, -⟩ | ⟨other, same, -, -, kept⟩ := of_list_cases blocks
  · cases refused.symm.trans taken
  · cases refused.symm.trans taken
  · cases same.symm.trans taken
    exact kept

theorem of_list_fault_iff (blocks : List Block) (fault : Fault) :
    ofList blocks = .error fault ↔ FirstFault blocks fault := by
  cases fault with
  | emptyRange index block =>
    rw [FirstFault, ← first_from_zero, ← first_empty_iff]
    obtain ⟨_, _, result, empty⟩ | ⟨_, _, _, result, empty, -⟩ | ⟨_, result, empty, -⟩ := of_list_cases blocks
    all_goals simp [result, empty]
  | overlap index lower upper =>
    rw [FirstFault, ← first_empty_none, ← first_from_zero, ← first_overlap_iff]
    obtain ⟨_, _, result, empty⟩ | ⟨_, _, _, result, empty, crossed⟩ | ⟨_, result, -, clear, -⟩ := of_list_cases blocks
    · simp [result, empty]
    · simp [result, empty, crossed]
    · simp [result, clear]

theorem neighbours_at (blocks : List Block) (index : Nat) (lower upper : Block) :
    (blocks.zip blocks.tail)[index]? = some (lower, upper) ↔
      blocks[index]? = some lower ∧ blocks[index + 1]? = some upper := by
  rw [List.getElem?_zip_eq_some, List.getElem?_tail]

theorem first_fault_breaks (blocks : List Block) (fault : Fault) (first : FirstFault blocks fault) (filled : Filled blocks) :
    ¬ Stacked blocks := by
  intro stacked
  cases fault with
  | emptyRange index block =>
    obtain ⟨member, hollow⟩ := first_mem Hollow blocks index block first
    exact UInt64.not_lt.mpr hollow (filled block member)
  | overlap index lower upper =>
    obtain ⟨-, access, crossing, -⟩ := first
    obtain ⟨lowerAt, upperAt⟩ := (neighbours_at blocks index lower upper).mp access
    exact UInt64.not_lt.mpr (stacked index (index + 1) lower upper (Nat.lt_succ_self _) lowerAt upperAt) crossing

theorem to_list_stacked (map : BlockMap) : Stacked map.toList := by
  intro i j lower upper less lowerAt upperAt
  exact blocks_ordered map i j lower upper less (by simpa [toList] using lowerAt) (by simpa [toList] using upperAt)

theorem accepted_iff (blocks : List Block) : (∃ map, ofList blocks = .ok map) ↔ Filled blocks ∧ Stacked blocks := by
  constructor
  · rintro ⟨map, taken⟩
    rw [← of_list_kept blocks map taken]
    exact ⟨map.filled, to_list_stacked map⟩
  · rintro ⟨filled, stacked⟩
    cases taken : ofList blocks with
    | ok map => exact ⟨map, rfl⟩
    | error fault => exact absurd stacked (first_fault_breaks blocks fault ((of_list_fault_iff blocks fault).mp taken) filled)

end BlockMap

end FunctionDiscovery
