import FunctionDiscovery.Proofs.Table

set_option autoImplicit false

namespace FunctionDiscovery

namespace FunctionTable

inductive Change where
  | insert (record : Record)
  | clear
deriving DecidableEq, Repr

def changed (table : FunctionTable) : Change → FunctionTable
  | .insert record => (table.insert? record).getD table
  | .clear => {}

def after (history : List Change) : FunctionTable := history.foldl changed {}

theorem ordered_ascending (records : List Record) (ordered : Ordered records) :
    Keyed.Ascending Record.start records := by
  refine ordered.apart.imp_of_mem fun {lower upper} member _ before => ?_
  exact UInt64.lt_of_le_of_lt (ordered.filled lower member) before

theorem apart_of_ordered (records : List Record) (ordered : Ordered records) (one other : Record)
    (oneMember : one ∈ records) (otherMember : other ∈ records) (different : one ≠ other) : one.Apart other :=
  (ordered_disjoint records ordered).forall oneMember otherMember different

theorem ordered_of_apart (records : List Record) (filled : ∀ record ∈ records, record.start ≤ record.last)
    (ascending : Keyed.Ascending Record.start records)
    (apart : ∀ one ∈ records, ∀ other ∈ records, one ≠ other → one.Apart other) : Ordered records := by
  refine ⟨filled, ascending.imp_of_mem fun {lower upper} lowerMember upperMember less => ?_⟩
  have different : lower ≠ upper := fun same => UInt64.lt_irrefl _ (same ▸ less)
  have separate := (Record.apart_iff lower upper (filled lower lowerMember) (filled upper upperMember)).mp
    (apart lower lowerMember upper upperMember different)
  cases separate with
  | inl before => exact before
  | inr after =>
    have inverted := UInt64.lt_trans after less
    exact absurd (filled upper upperMember) (UInt64.not_le.mpr inverted)

theorem insert_ordered (records : List Record) (fresh : Record) (ordered : Ordered records)
    (filled : fresh.start ≤ fresh.last) (clear : ∀ record ∈ records, record.Apart fresh) :
    Ordered (Keyed.insert Record.start fresh records) := by
  have ascending := ordered_ascending records ordered
  have source (record : Record) (member : record ∈ Keyed.insert Record.start fresh records) :
      record = fresh ∨ record ∈ records :=
    ((Keyed.mem_insert Record.start fresh record records ascending).mp member).imp_right And.left
  apply ordered_of_apart
  · intro record member
    cases source record member with
    | inl new => exact new ▸ filled
    | inr old => exact ordered.filled record old
  · exact Keyed.insert_ascending Record.start fresh records ascending
  · intro one oneMember other otherMember different
    cases source one oneMember with
    | inl oneNew =>
      cases source other otherMember with
      | inl otherNew => exact absurd (oneNew.trans otherNew.symm) different
      | inr otherOld => exact oneNew ▸ symm (clear other otherOld)
    | inr oneOld =>
      cases source other otherMember with
      | inl otherNew => exact otherNew ▸ clear one oneOld
      | inr otherOld => exact apart_of_ordered records ordered one other oneOld otherOld different

theorem changed_ordered (table : FunctionTable) (change : Change) (ordered : Ordered table.records) :
    Ordered (table.changed change).records := by
  cases change with
  | clear => exact ordered_nil
  | insert fresh =>
    cases insert_cases table fresh ordered with
    | inl taken =>
      obtain ⟨filled, clear, result⟩ := taken
      rw [changed, result]
      exact insert_ordered table.records fresh ordered filled clear
    | inr refused =>
      rw [changed, refused.2]
      exact ordered

theorem history_ordered (history : List Change) (table : FunctionTable) (ordered : Ordered table.records) :
    Ordered (history.foldl changed table).records := by
  induction history generalizing table with
  | nil => exact ordered
  | cons change rest ih => exact ih (table.changed change) (changed_ordered table change ordered)

theorem after_ordered (history : List Change) : Ordered (after history).records :=
  history_ordered history {} ordered_nil

section Reached

variable (table : FunctionTable) (ordered : Ordered table.records)

include ordered

theorem stored_under_start (record : Record) (member : record ∈ table.records) :
    Keyed.floor? Record.start record.start table.records = some record :=
  Keyed.floor_highest Record.start record.start table.records record (ordered_ascending table.records ordered) member
    (UInt64.le_refl _) fun _ _ atMost => atMost

theorem insert_taken_iff (fresh : Record) :
    (table.insert? fresh).isSome = true ↔
      fresh.start ≤ fresh.last ∧ ∀ record ∈ table.records, record.Apart fresh := by
  cases insert_cases table fresh ordered with
  | inl taken =>
    obtain ⟨filled, clear, result⟩ := taken
    simp only [result, Option.isSome_some, true_iff]
    exact ⟨filled, clear⟩
  | inr refused =>
    obtain ⟨unfit, result⟩ := refused
    simp only [result, Option.isSome_none, Bool.false_eq_true, false_iff]
    exact unfit

theorem insert_taken_records (fresh : Record) (taken : (table.insert? fresh).isSome = true) :
    (table.changed (.insert fresh)).records.Perm (fresh :: table.records) := by
  cases insert_cases table fresh ordered with
  | inl fits =>
    obtain ⟨filled, clear, result⟩ := fits
    rw [changed, result]
    apply Keyed.insert_perm
    -- A function with the same start would have it in common with the new one.
    intro record member same
    have own : record.Holds record.start := ⟨UInt64.le_refl _, ordered.filled record member⟩
    exact clear record member record.start ⟨own, same ▸ UInt64.le_refl _, same ▸ filled⟩
  | inr refused => simp [refused.2] at taken

theorem get_none_iff (a : Address) : table.get? a = none ↔ ∀ record ∈ table.records, ¬ record.Holds a := by
  rw [Option.eq_none_iff_forall_ne_some]
  refine forall_congr' fun record => ?_
  rw [Ne, get_iff table a record ordered, not_and]

end Reached

theorem disjoint_throughout (history : List Change) :
    let table := after history
    ((∀ record ∈ table.records, Keyed.floor? Record.start record.start table.records = some record ∧
        record.start ≤ record.last) ∧
      (∀ one ∈ table.records, ∀ other ∈ table.records, one ≠ other → one.Apart other) ∧
      table.records.Pairwise fun lower upper => lower.start < upper.start) ∧
    (∀ fresh : Record,
      ((table.insert? fresh).isSome = true ↔
        fresh.start ≤ fresh.last ∧ ∀ record ∈ table.records, ∀ a, record.Holds a → ¬ fresh.Holds a) ∧
      ((table.insert? fresh).isSome = true →
        (table.changed (.insert fresh)).records.Perm (fresh :: table.records)) ∧
      ((table.insert? fresh).isSome = false → table.changed (.insert fresh) = table)) ∧
    ∀ a, (∀ record, table.get? a = some record ↔ record ∈ table.records ∧ record.Holds a) ∧
      (table.get? a = none ↔ ∀ record ∈ table.records, ¬ record.Holds a) := by
  intro table
  have ordered : Ordered table.records := after_ordered history
  refine ⟨⟨fun record member => ⟨stored_under_start table ordered record member, ordered.filled record member⟩, ?_,
    ordered_ascending table.records ordered⟩, fun fresh => ⟨?_, insert_taken_records table ordered fresh, ?_⟩,
    fun a => ⟨fun record => get_iff table a record ordered, get_none_iff table ordered a⟩⟩
  · exact fun one oneMember other otherMember => apart_of_ordered table.records ordered one other oneMember otherMember
  · simpa only [Record.Apart, not_and] using insert_taken_iff table ordered fresh
  · intro refused
    have none : table.insert? fresh = none := by simpa using refused
    rw [changed, none, Option.getD_none]

end FunctionTable

end FunctionDiscovery
