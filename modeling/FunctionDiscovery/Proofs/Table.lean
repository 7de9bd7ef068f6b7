import FunctionDiscovery.FunctionTable
import FunctionDiscovery.Proofs.KeyedOrder

set_option autoImplicit false

namespace FunctionDiscovery

namespace Record

def Holds (record : Record) (a : Address) : Prop := record.start ≤ a ∧ a ≤ record.last

def Apart (one other : Record) : Prop := ∀ a, ¬ (one.Holds a ∧ other.Holds a)

instance : Std.Symm Apart := ⟨fun _ _ apart a shared => apart a shared.symm⟩

theorem apart_iff (one other : Record) (oneFilled : one.start ≤ one.last) (otherFilled : other.start ≤ other.last) :
    one.Apart other ↔ one.last < other.start ∨ other.last < one.start := by
  constructor
  · intro apart
    by_cases before : one.last < other.start
    · exact .inl before
    · right
      rw [← UInt64.not_le]
      intro reaches
      -- They meet at the later one of their starts.
      by_cases later : one.start ≤ other.start
      · exact apart other.start ⟨⟨later, UInt64.not_lt.mp before⟩, UInt64.le_refl _, otherFilled⟩
      · have earlier := UInt64.le_of_lt (UInt64.not_le.mp later)
        exact apart one.start ⟨⟨UInt64.le_refl _, oneFilled⟩, earlier, reaches⟩
  · intro separate a shared
    obtain ⟨⟨oneBelow, oneAbove⟩, otherBelow, otherAbove⟩ := shared
    cases separate with
    | inl before =>
      exact UInt64.lt_irrefl a (UInt64.lt_of_le_of_lt oneAbove (UInt64.lt_of_lt_of_le before otherBelow))
    | inr after =>
      exact UInt64.lt_irrefl a (UInt64.lt_of_le_of_lt otherAbove (UInt64.lt_of_lt_of_le after oneBelow))

end Record

namespace FunctionTable

structure Ordered (records : List Record) : Prop where
  filled : ∀ record ∈ records, record.start ≤ record.last
  apart : records.Pairwise fun lower upper => lower.last < upper.start

theorem ordered_nil : Ordered [] := ⟨by simp, .nil⟩

theorem ordered_tail (head : Record) (rest : List Record) (ordered : Ordered (head :: rest)) : Ordered rest :=
  ⟨fun record member => ordered.filled record (List.mem_cons_of_mem _ member), ordered.apart.of_cons⟩

theorem ordered_append (records : List Record) (fresh : Record) (ordered : Ordered records)
    (filled : fresh.start ≤ fresh.last) (past : ∀ record ∈ records, record.last < fresh.start) :
    Ordered (records ++ [fresh]) := by
  constructor
  · intro record member
    rcases List.mem_append.mp member with old | new
    · exact ordered.filled record old
    · exact List.mem_singleton.mp new ▸ filled
  · refine List.pairwise_append.mpr ⟨ordered.apart, List.pairwise_singleton _ _, fun record old other new => ?_⟩
    exact List.mem_singleton.mp new ▸ past record old

theorem ordered_disjoint (records : List Record) (ordered : Ordered records) : records.Pairwise Record.Apart := by
  refine ordered.apart.imp fun {lower upper} less a shared => ?_
  obtain ⟨⟨-, atMost⟩, atLeast, -⟩ := shared
  exact UInt64.lt_irrefl a (UInt64.lt_of_le_of_lt atMost (UInt64.lt_of_lt_of_le less atLeast))

theorem floor_holds (records : List Record) (a : Address) (record : Record) (ordered : Ordered records) :
    (Keyed.floor? Record.start a records).filter (fun record => a ≤ record.last) = some record ↔
      record ∈ records ∧ record.Holds a := by
  -- The last function that starts at or before the address is the only one that can reach it: those
  -- before it end where it starts or earlier, and those after it start too late.
  induction records with
  | nil => simp [Keyed.floor?]
  | cons head rest ih =>
    obtain ⟨before, -⟩ := List.pairwise_cons.mp ordered.apart
    have later := ih (ordered_tail head rest ordered)
    rw [Keyed.floor_cons]
    by_cases below : head.start ≤ a
    · rw [if_pos below]
      cases found : Keyed.floor? Record.start a rest with
      | none =>
        rw [found] at later
        have missed : ¬ (record ∈ rest ∧ record.Holds a) := by simp [← later]
        rw [Option.none_or, Option.filter_eq_some_iff, List.mem_cons, decide_eq_true_iff]
        constructor
        · rintro ⟨same, reaches⟩
          obtain rfl := Option.some.inj same
          exact ⟨.inl rfl, below, reaches⟩
        · rintro ⟨rfl | member, holds⟩
          · exact ⟨rfl, holds.2⟩
          · exact absurd ⟨member, holds⟩ missed
      | some lower =>
        rw [found] at later
        obtain ⟨lowerMember, lowerStart⟩ := Keyed.floor_mem _ a rest lower found
        have passed : head.last < a := UInt64.lt_of_lt_of_le (before lower lowerMember) lowerStart
        rw [Option.some_or, later, List.mem_cons]
        constructor
        · rintro ⟨member, holds⟩
          exact ⟨.inr member, holds⟩
        · rintro ⟨rfl | member, holds⟩
          · exact absurd holds.2 (UInt64.not_le.mpr passed)
          · exact ⟨member, holds⟩
    · have above : a < head.start := UInt64.not_le.mp below
      rw [if_neg below, Option.filter_none]
      refine ⟨fun impossible => by simp at impossible, ?_⟩
      rintro ⟨member, holds⟩
      rcases List.mem_cons.mp member with rfl | member
      · exact absurd holds.1 below
      · have after := UInt64.lt_of_le_of_lt (ordered.filled head List.mem_cons_self) (before record member)
        exact absurd holds.1 (UInt64.not_le.mpr (UInt64.lt_trans above after))

theorem get_iff (table : FunctionTable) (a : Address) (record : Record) (ordered : Ordered table.records) :
    table.get? a = some record ↔ record ∈ table.records ∧ record.Holds a :=
  floor_holds table.records a record ordered

theorem overlaps_iff (table : FunctionTable) (start last : Address) (ordered : Ordered table.records)
    (filled : start ≤ last) :
    table.overlaps start last = true ↔ ∃ record ∈ table.records, record.start ≤ last ∧ start ≤ record.last := by
  simp only [overlaps, Bool.or_eq_true, Option.isSome_iff_exists, get_iff table start _ ordered, List.any_eq_true,
    Bool.and_eq_true, decide_eq_true_iff]
  constructor
  · rintro (⟨record, member, holds⟩ | ⟨record, member, above, below⟩)
    · exact ⟨record, member, UInt64.le_trans holds.1 filled, holds.2⟩
    · exact ⟨record, member, below, UInt64.le_trans above (ordered.filled record member)⟩
  · rintro ⟨record, member, below, above⟩
    by_cases earlier : record.start ≤ start
    · exact .inl ⟨record, member, earlier, above⟩
    · exact .inr ⟨record, member, UInt64.le_of_lt (UInt64.not_le.mp earlier), below⟩

theorem insert_cases (table : FunctionTable) (fresh : Record) (ordered : Ordered table.records) :
    (fresh.start ≤ fresh.last ∧ (∀ record ∈ table.records, record.Apart fresh) ∧
      table.insert? fresh = some ⟨Keyed.insert Record.start fresh table.records⟩) ∨
    (¬ (fresh.start ≤ fresh.last ∧ ∀ record ∈ table.records, record.Apart fresh) ∧ table.insert? fresh = none) := by
  by_cases filled : fresh.start ≤ fresh.last
  · have upright : ¬ fresh.last < fresh.start := UInt64.not_lt.mpr filled
    have clear : table.overlaps fresh.start fresh.last = false ↔ ∀ record ∈ table.records, record.Apart fresh := by
      rw [← Bool.not_eq_true, overlaps_iff table _ _ ordered filled, not_exists]
      refine forall_congr' fun record => ?_
      rw [not_and]
      refine forall_congr' fun member => ?_
      rw [Record.apart_iff record fresh (ordered.filled record member) filled, not_and_or, UInt64.not_le, UInt64.not_le,
        or_comm]
    cases overlap : table.overlaps fresh.start fresh.last with
    | false => exact .inl ⟨filled, clear.mp overlap, by simp [insert?, upright, overlap]⟩
    | true =>
      refine .inr ⟨fun fits => ?_, by simp [insert?, overlap]⟩
      simp [clear.mpr fits.2] at overlap
  · exact .inr ⟨fun fits => filled fits.1, by simp [insert?, UInt64.not_le.mp filled]⟩

theorem insert_past (table : FunctionTable) (fresh : Record) (ordered : Ordered table.records)
    (filled : fresh.start ≤ fresh.last) (past : ∀ record ∈ table.records, record.last < fresh.start) :
    table.insert? fresh = some ⟨table.records ++ [fresh]⟩ := by
  have clear : ∀ record ∈ table.records, record.Apart fresh := fun record member =>
    (Record.apart_iff record fresh (ordered.filled record member) filled).mpr (.inl (past record member))
  have highest : ∀ record ∈ table.records, record.start < fresh.start := fun record member =>
    UInt64.lt_of_le_of_lt (ordered.filled record member) (past record member)
  cases insert_cases table fresh ordered with
  | inl taken => rw [taken.2.2, Keyed.insert_highest _ _ _ highest]
  | inr refused => exact absurd ⟨filled, clear⟩ refused.1

theorem insert_refused (table : FunctionTable) (fresh : Record) (ordered : Ordered table.records)
    (latest : ∀ record ∈ table.records, record.start ≤ fresh.start)
    (unfit : fresh.last < fresh.start ∨ ∃ record ∈ table.records, fresh.start ≤ record.last) :
    table.insert? fresh = none := by
  cases insert_cases table fresh ordered with
  | inl taken =>
    obtain ⟨filled, clear, -⟩ := taken
    obtain ⟨record, member, reaches⟩ := unfit.resolve_left (UInt64.not_lt.mpr filled)
    exact absurd ⟨⟨latest record member, reaches⟩, UInt64.le_refl _, filled⟩ (clear record member fresh.start)
  | inr refused => exact refused.2

end FunctionTable

end FunctionDiscovery
