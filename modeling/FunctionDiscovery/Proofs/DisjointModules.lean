import FunctionDiscovery.Proofs.ModuleLookup

set_option autoImplicit false

namespace FunctionDiscovery

namespace Keyed

variable {α : Type}

theorem insert_before_perm (key : α → Address) (fresh : α) (xs : List α) :
    (insertBefore key fresh xs).Perm (fresh :: xs) := by
  induction xs with
  | nil => exact .refl _
  | cons x rest ih =>
    by_cases less : key x < key fresh
    · rw [insertBefore, if_pos less]
      exact (ih.cons x).trans (.swap fresh x rest)
    · rw [insertBefore, if_neg less]

theorem inserted_perm (key : α → Address) (fresh xs : List α) :
    (fresh.foldl (fun xs x => insertBefore key x xs) xs).Perm (fresh ++ xs) := by
  induction fresh generalizing xs with
  | nil => exact .refl _
  | cons x rest ih =>
    have inserted := (insert_before_perm key x xs).append_left rest
    exact ((ih _).trans inserted).trans List.perm_middle

theorem ascending_of_rising (key : α → Address) (xs : List α) (rising : Rising key xs) (distinct : (xs.map key).Nodup) :
    Ascending key xs := by
  have different : xs.Pairwise fun lower upper => key lower ≠ key upper := List.pairwise_map.mp distinct
  exact (rising.and different).imp fun both => UInt64.lt_of_le_of_ne both.1 both.2

theorem ascending_unique (key : α → Address) (one other : List α) (order : one.Perm other) (ascending : Ascending key one)
    (alike : Ascending key other) : one = other :=
  order.eq_of_pairwise (fun _ _ _ _ below above => absurd above (UInt64.lt_asymm below)) ascending alike

end Keyed

-- From the base on, as many addresses as the size says. The end may be past the last address.
def Module.Holds (m : Module) (a : Address) : Prop :=
  m.base.toNat ≤ a.toNat ∧ a.toNat < m.base.toNat + m.size.toNat

theorem Module.contains_iff (m : Module) (a : Address) : m.contains a = true ↔ m.Holds a := by
  rw [contains, Bool.and_eq_true, decide_eq_true_eq, decide_eq_true_eq, Holds, UInt64.le_iff_toNat_le]
  refine and_congr_right fun above => ?_
  rw [UInt64.lt_iff_toNat_lt, UInt64.toNat_sub_of_le a m.base (UInt64.le_iff_toNat_le.mpr above)]
  omega

namespace ModuleMap

def Next (modules : List Module) (m next : Module) : Prop :=
  m.base < next.base ∧ ∀ other ∈ modules, m.base < other.base → next.base ≤ other.base

def Apart (modules : List Module) : Prop :=
  ∀ m ∈ modules, ∀ next ∈ modules, Next modules m next → m.base.toNat + m.size.toNat ≤ next.base.toNat

theorem apart_above (modules : List Module) (apart : Apart modules) (m upper : Module) (member : m ∈ modules)
    (present : upper ∈ modules) (less : m.base < upper.base) : m.base.toNat + m.size.toNat ≤ upper.base.toNat := by
  -- Induction on the upper base: unless it is the next one, there is a lower one between the two.
  induction height : upper.base.toNat using Nat.strongRecOn generalizing upper with
  | ind _ ih =>
    by_cases next : Next modules m upper
    · exact height ▸ apart m member upper present next
    · obtain ⟨between, listed, above, below⟩ : ∃ other ∈ modules, m.base < other.base ∧ other.base < upper.base := by
        simpa only [Next, less, true_and, not_forall, UInt64.not_le, exists_prop] using next
      have lower := UInt64.lt_iff_toNat_lt.mp below
      have ends := ih between.base.toNat (height ▸ lower) between listed above rfl
      omega

theorem of_list_perm (inserted : List Module) : (ofList inserted).modules.Perm inserted := by
  have listed := Keyed.inserted_perm Module.base inserted []
  rwa [List.append_nil, ← of_list_modules] at listed

section Distinct

variable (inserted : List Module) (distinct : (inserted.map Module.base).Nodup)

include distinct

theorem of_list_ascending : Keyed.Ascending Module.base (ofList inserted).modules :=
  Keyed.ascending_of_rising Module.base _ (of_list_rising inserted)
    (((of_list_perm inserted).map Module.base).nodup_iff.mpr distinct)

theorem inserted_in_order (arrived : List Module) (order : arrived.Perm inserted) : ofList arrived = ofList inserted := by
  have alike := of_list_ascending arrived ((order.map Module.base).nodup_iff.mpr distinct)
  have listed := ((of_list_perm arrived).trans order).trans (of_list_perm inserted).symm
  exact congrArg mk (Keyed.ascending_unique Module.base _ _ listed alike (of_list_ascending inserted distinct))

theorem get_holding (apart : Apart inserted) (a : Address) (m : Module) :
    (ofList inserted).get? a = some m ↔ m ∈ inserted ∧ m.Holds a := by
  have member (m : Module) : m ∈ (ofList inserted).modules ↔ m ∈ inserted := (of_list_perm inserted).mem_iff
  rw [get?, Option.filter_eq_some_iff, m.contains_iff a,
    Keyed.floor_iff Module.base a _ m (of_list_ascending inserted distinct), member]
  constructor
  · rintro ⟨⟨listed, -⟩, holds⟩
    exact ⟨listed, holds⟩
  · rintro ⟨listed, holds⟩
    refine ⟨⟨listed, UInt64.le_iff_toNat_le.mpr holds.1, fun other present below => ?_⟩, holds⟩
    -- A module with a base between the two would begin before this one ends.
    refine UInt64.not_lt.mp fun above => ?_
    have ends := apart_above inserted apart m other listed ((member other).mp present) above
    have start := UInt64.le_iff_toNat_le.mp below
    exact Nat.not_lt.mpr (Nat.le_trans ends start) holds.2

end Distinct

theorem found_in_any_order (inserted : List Module) :
    Keyed.Rising Module.base (ofList inserted).modules ∧ (ofList inserted).modules.Perm inserted ∧
    ((inserted.map Module.base).Nodup → Apart inserted → ∀ a : Address,
      (∀ m, (ofList inserted).get? a = some m ↔ m ∈ inserted ∧ m.Holds a) ∧
      (∀ m ∈ inserted, ∀ other ∈ inserted, m.Holds a → other.Holds a → m = other) ∧
      ((ofList inserted).get? a = none ↔ ∀ m ∈ inserted, ¬ m.Holds a) ∧
      ∀ arrived : List Module, arrived.Perm inserted →
        (ofList arrived).get? a = (ofList inserted).get? a ∧ (ofList arrived).base? a = (ofList inserted).base? a ∧
        (ofList arrived).path? a = (ofList inserted).path? a) := by
  refine ⟨of_list_rising inserted, of_list_perm inserted, fun distinct apart a => ?_⟩
  have found := get_holding inserted distinct apart a
  refine ⟨found, ?_, ?_, ?_⟩
  · intro m listed other present holds alike
    have first := (found m).mpr ⟨listed, holds⟩
    have second := (found other).mpr ⟨present, alike⟩
    exact Option.some.inj (first.symm.trans second)
  · simp only [Option.eq_none_iff_forall_ne_some, ne_eq, found, not_and]
  · intro arrived order
    rw [inserted_in_order inserted distinct arrived order]
    exact ⟨rfl, rfl, rfl⟩

def lower : Module := ⟨0x1000, 0x1000, "lower.dll"⟩

def hollow : Module := ⟨0x2000, 0, "hollow.dll"⟩

def topmost : Module := ⟨0xfffffffffffff000, 0x1000, "topmost.dll"⟩

theorem found_in_any_order_edges :
    ([topmost, lower, hollow].map Module.base).Nodup ∧ Apart [topmost, lower, hollow] ∧
      (ofList [topmost, lower, hollow]).get? 0xffffffffffffffff = some topmost ∧
      (ofList [topmost, lower, hollow]).get? 0x2000 = none ∧
      (ofList [hollow, lower, topmost]).get? 0x1fff = (ofList [topmost, lower, hollow]).get? 0x1fff ∧
      (ofList [hollow, lower, topmost]).path? 0x2000 = (ofList [topmost, lower, hollow]).path? 0x2000 := by
  have distinct : ([topmost, lower, hollow].map Module.base).Nodup := by decide
  have apart : Apart [topmost, lower, hollow] := by
    simp only [Apart, Next]
    decide
  obtain ⟨-, -, lookup⟩ := found_in_any_order [topmost, lower, hollow]
  have reversed : [hollow, lower, topmost].Perm [topmost, lower, hollow] := [topmost, lower, hollow].reverse_perm
  have last := ((lookup distinct apart 0xffffffffffffffff).1 topmost).mpr
    ⟨List.mem_cons_self, by simp only [Module.Holds]; decide⟩
  have behind := (lookup distinct apart 0x2000).2.2.1.mpr (by simp only [Module.Holds]; decide)
  exact ⟨distinct, apart, last, behind, ((lookup distinct apart 0x1fff).2.2.2 _ reversed).1,
    ((lookup distinct apart 0x2000).2.2.2 _ reversed).2.2⟩

end ModuleMap

end FunctionDiscovery
