import FunctionDiscovery.Discovery
import FunctionDiscovery.Proofs.KeyedOrder

set_option autoImplicit false

namespace FunctionDiscovery

namespace Keyed

variable {α : Type}

def under (key : α → Address) (a : Address) (xs : List α) : List α := xs.filter fun x => key x == a

theorem under_insert_before (key : α → Address) (a : Address) (fresh : α) (xs : List α) :
    under key a (insertBefore key fresh xs) =
      if key fresh = a then fresh :: under key a xs else under key a xs := by
  induction xs with
  | nil => by_cases same : key fresh = a <;> simp [insertBefore, under, same]
  | cons x rest ih =>
    by_cases less : key x < key fresh
    · rw [insertBefore, if_pos less]
      by_cases same : key fresh = a
      · -- What is passed over lies below the fresh element, and so under another address.
        have other : key x ≠ a := same ▸ UInt64.ne_of_lt less
        rw [if_pos same] at ih ⊢
        simpa [under, other] using ih
      · rw [if_neg same] at ih ⊢
        simp only [under, List.filter_cons] at ih ⊢
        rw [ih]
    · rw [insertBefore, if_neg less]
      by_cases same : key fresh = a <;> simp [under, same]

theorem inserted_under (key : α → Address) (a : Address) (fresh : List α) (xs : List α) :
    under key a (fresh.foldl (fun xs x => insertBefore key x xs) xs) = (under key a fresh).reverse ++ under key a xs := by
  induction fresh generalizing xs with
  | nil => rfl
  | cons x rest ih =>
    rw [List.foldl_cons, ih, under_insert_before]
    by_cases same : key x = a <;> simp [under, same]

theorem mem_insert_before (key : α → Address) (fresh y : α) (xs : List α) :
    y ∈ insertBefore key fresh xs ↔ y = fresh ∨ y ∈ xs := by
  induction xs with
  | nil => simp [insertBefore]
  | cons x rest ih =>
    by_cases less : key x < key fresh
    · rw [insertBefore, if_pos less, List.mem_cons, ih, List.mem_cons]
      exact or_left_comm
    · rw [insertBefore, if_neg less, List.mem_cons]

theorem insert_before_rising (key : α → Address) (fresh : α) (xs : List α) (rising : Rising key xs) :
    Rising key (insertBefore key fresh xs) := by
  induction xs with
  | nil => exact List.pairwise_singleton _ _
  | cons x rest ih =>
    obtain ⟨above, risingRest⟩ := List.pairwise_cons.mp rising
    by_cases less : key x < key fresh
    · rw [insertBefore, if_pos less]
      refine List.pairwise_cons.mpr ⟨fun y member => ?_, ih risingRest⟩
      cases (mem_insert_before key fresh y rest).mp member with
      | inl new => exact new ▸ UInt64.le_of_lt less
      | inr old => exact above y old
    · rw [insertBefore, if_neg less]
      have first : key fresh ≤ key x := UInt64.not_lt.mp less
      refine List.pairwise_cons.mpr ⟨fun y member => ?_, rising⟩
      cases List.mem_cons.mp member with
      | inl same => exact same ▸ first
      | inr later => exact UInt64.le_trans first (above y later)

theorem inserted_rising (key : α → Address) (fresh : List α) (xs : List α) (rising : Rising key xs) :
    Rising key (fresh.foldl (fun xs x => insertBefore key x xs) xs) := by
  induction fresh generalizing xs with
  | nil => exact rising
  | cons x rest ih => exact ih _ (insert_before_rising key x xs rising)

theorem floor_last (key : α → Address) (a : Address) (xs : List α) (x : α) (rising : Rising key xs)
    (found : floor? key a xs = some x) : (under key (key x) xs).getLast? = some x := by
  induction xs with
  | nil => simp [floor?] at found
  | cons head rest ih =>
    obtain ⟨above, risingRest⟩ := List.pairwise_cons.mp rising
    rw [floor_cons] at found
    by_cases below : key head ≤ a
    · rw [if_pos below] at found
      cases later : floor? key a rest with
      | some y =>
        rw [later, Option.some_or] at found
        have last := ih risingRest (found ▸ later)
        rw [under, List.filter_cons]
        by_cases shared : (key head == key x) = true
        · rw [if_pos shared, List.getLast?_cons, ← under, last]
          rfl
        · rw [if_neg shared]
          exact last
      | none =>
        rw [later, Option.none_or] at found
        obtain rfl := Option.some.inj found
        have alone : under key (key head) rest = [] := by
          apply List.filter_eq_nil_iff.mpr
          intro y member shared
          have beyond := floor_none key a rest risingRest later y member
          exact UInt64.lt_irrefl a (UInt64.lt_of_lt_of_le beyond (eq_of_beq shared ▸ below))
        rw [under] at alone
        simp [under, alone]
    · simp [below] at found

end Keyed

namespace ModuleMap

theorem of_list_modules (inserted : List Module) :
    (ofList inserted).modules = inserted.foldl (fun xs m => Keyed.insertBefore Module.base m xs) [] := by
  have run (map : ModuleMap) : (inserted.foldl insert map).modules =
      inserted.foldl (fun xs m => Keyed.insertBefore Module.base m xs) map.modules := by
    induction inserted generalizing map with
    | nil => rfl
    | cons m rest ih => exact ih (map.insert m)
  exact run {}

theorem of_list_rising (inserted : List Module) : Keyed.Rising Module.base (ofList inserted).modules := by
  rw [of_list_modules]
  exact Keyed.inserted_rising Module.base inserted [] .nil

theorem of_list_under (inserted : List Module) (base : Address) :
    Keyed.under Module.base base (ofList inserted).modules = (Keyed.under Module.base base inserted).reverse := by
  rw [of_list_modules, Keyed.inserted_under]
  exact List.append_nil _

theorem found_first (inserted : List Module) (a : Address) (m : Module) (found : (ofList inserted).get? a = some m) :
    (Keyed.under Module.base m.base inserted).head? = some m := by
  obtain ⟨floor, -⟩ := Option.filter_eq_some_iff.mp found
  have last := Keyed.floor_last Module.base a _ m (of_list_rising inserted) floor
  rwa [of_list_under, List.getLast?_reverse] at last

theorem path_last (inserted : List Module) (base : Address) :
    (ofList inserted).path? base = (Keyed.under Module.base base inserted).getLast?.map Module.path := by
  rw [path?, ← List.head?_filter, ← List.head?_reverse, ← of_list_under]
  rfl

end ModuleMap

namespace Discovery

variable {σ : Type}

theorem prepare_file (one other : Files) (resolver : Resolver) (memory : Memory) (watch : Watch σ) (bounds : AddressRange)
    (workers : Nat) (width : PointerWidth) (state : σ) (base : Address) (path : String)
    (owner : resolver.base? bounds.start = some base) (known : resolver.path? base = some path)
    (same : one path = other path) :
    prepare one resolver memory watch bounds workers width state =
      prepare other resolver memory watch bounds workers width state := by
  have located : recordsAt? one resolver base = recordsAt? other resolver base := by
    simp only [recordsAt?, known, Option.bind_eq_bind, Option.bind_some, same]
  simp only [prepare, owner, Option.bind_some, located]

theorem first_found_last_opened (inserted : List Module) (a : Address) (m : Module)
    (found : (ModuleMap.ofList inserted).get? a = some m) :
    (ModuleMap.ofList inserted).base? a = some m.base ∧
    (Keyed.under Module.base m.base inserted).head? = some m ∧
    ∃ latest, (Keyed.under Module.base m.base inserted).getLast? = some latest ∧
      (ModuleMap.ofList inserted).path? m.base = some latest.path ∧
      ((ModuleMap.ofList inserted).path? m.base = some m.path ↔ latest.path = m.path) ∧
      ∀ (one other : Files) (memory : Memory) (watch : Watch σ) (bounds : AddressRange) (workers : Nat)
        (width : PointerWidth) (state : σ), bounds.start = a → one latest.path = other latest.path →
        prepare one (ModuleMap.ofList inserted).resolver memory watch bounds workers width state =
          prepare other (ModuleMap.ofList inserted).resolver memory watch bounds workers width state := by
  have owner : (ModuleMap.ofList inserted).base? a = some m.base := by rw [ModuleMap.base?, found, Option.map_some]
  have first := ModuleMap.found_first inserted a m found
  have known := ModuleMap.path_last inserted m.base
  cases last : (Keyed.under Module.base m.base inserted).getLast? with
  | none =>
    rw [List.getLast?_eq_none_iff] at last
    simp [last] at first
  | some latest =>
    rw [last, Option.map_some] at known
    refine ⟨owner, first, latest, rfl, known, ?_, ?_⟩
    · rw [known, Option.some.injEq]
    · intro one other memory watch bounds workers width state start same
      exact prepare_file one other _ memory watch bounds workers width state m.base latest.path (start ▸ owner) known same

def older : Module := ⟨0x1000, 0x1000, "older.exe"⟩

def newer : Module := ⟨0x1000, 0x2000, "newer.exe"⟩

theorem first_found_last_opened_twice :
    (ModuleMap.ofList [older, newer]).get? 0x1800 = some older ∧
      (ModuleMap.ofList [older, newer]).base? 0x1800 = some 0x1000 ∧
      ∀ one other : Files, one "newer.exe" = other "newer.exe" →
        prepare one (ModuleMap.ofList [older, newer]).resolver ⟨fun a n => .error (.unmapped a n), fun _ => false⟩
            Watch.never ⟨0x1800, 0x1900⟩ 1 .bits64 () =
          prepare other (ModuleMap.ofList [older, newer]).resolver ⟨fun a n => .error (.unmapped a n), fun _ => false⟩
            Watch.never ⟨0x1800, 0x1900⟩ 1 .bits64 () := by
  have found : (ModuleMap.ofList [older, newer]).get? 0x1800 = some older := by decide
  obtain ⟨owner, -, latest, last, -, -, opened⟩ := first_found_last_opened (σ := Unit) [older, newer] 0x1800 older found
  obtain rfl : newer = latest := Option.some.inj last
  exact ⟨found, owner, fun one other same => opened one other _ _ ⟨0x1800, 0x1900⟩ 1 .bits64 () rfl same⟩

theorem path_of_another_module :
    ¬ ∀ (inserted : List Module) (a : Address) (m : Module), (ModuleMap.ofList inserted).get? a = some m →
      (ModuleMap.ofList inserted).base? a = some m.base ∧ (ModuleMap.ofList inserted).path? m.base = some m.path := by
  intro agree
  have found : (ModuleMap.ofList [older, newer]).get? 0x1800 = some older := by decide
  exact absurd (agree [older, newer] 0x1800 older found).2 (by decide)

end Discovery

end FunctionDiscovery
