import FunctionDiscovery.Listing.Load
import FunctionDiscovery.Proofs.BlockFaults

set_option autoImplicit false

namespace FunctionDiscovery.Listing

def Entry.addresses (entry : Entry) : List Written := entry.start :: entry.stop :: entry.target.toList

def Written.Unparsable (written : Written) : Prop := ∃ text fault, written = .text text ∧ Address.parse text = .error fault

def Rejected (written : List Written) (fault : Address.Fault) : Prop :=
  ∃ place text, FirstAt Written.Unparsable written place (.text text) ∧ Address.parse text = .error fault

def Entry.Unparsable (entry : Entry) : Prop := ∃ written ∈ entry.addresses, written.Unparsable

def FirstFault (entries : List Entry) : Fault → Prop
  | .unreadable _ => False
  | .address index fault => ∃ entry, FirstAt Entry.Unparsable entries index entry ∧ Rejected entry.addresses fault
  | .order fault => ∃ blocks, entries.map Entry.block = blocks.map .ok ∧ BlockMap.FirstFault blocks fault

theorem address_fault_iff (written : Written) (fault : Address.Fault) :
    written.address = .error fault ↔ ∃ text, written = .text text ∧ Address.parse text = .error fault := by
  cases written with
  | number value => simp [Written.address]
  | text value => simp [Written.address]

theorem unparsable_iff (written : Written) : written.Unparsable ↔ ∃ fault, written.address = .error fault := by
  simp only [Written.Unparsable, address_fault_iff]
  exact exists_comm

theorem rejected_nil (fault : Address.Fault) : ¬ Rejected [] fault := by
  rintro ⟨place, text, first, -⟩
  exact first_nil _ place _ first

theorem rejected_here (written : Written) (others : List Written) (fault other : Address.Fault)
    (refused : written.address = .error fault) : Rejected (written :: others) other ↔ fault = other := by
  obtain ⟨text, rfl, parsed⟩ := (address_fault_iff written fault).mp refused
  simp only [Rejected, first_here Written.Unparsable _ others ⟨text, fault, rfl, parsed⟩]
  constructor
  · rintro ⟨_, _, ⟨-, same⟩, again⟩
    rw [Written.text.inj same, parsed] at again
    exact Except.error.inj again
  · rintro rfl
    exact ⟨0, text, ⟨rfl, rfl⟩, parsed⟩

theorem rejected_later (written : Written) (others : List Written) (a : Address) (fault : Address.Fault)
    (parsed : written.address = .ok a) : Rejected (written :: others) fault ↔ Rejected others fault := by
  have missed : ¬ written.Unparsable := by
    rw [unparsable_iff, parsed]
    simp
  simp only [Rejected, first_later Written.Unparsable written others missed]
  constructor
  · rintro ⟨_, text, ⟨place, -, first⟩, refused⟩
    exact ⟨place, text, first, refused⟩
  · rintro ⟨place, text, first, refused⟩
    exact ⟨place + 1, text, ⟨place, rfl, first⟩, refused⟩

theorem block_fault_iff (entry : Entry) (fault : Address.Fault) :
    entry.block = .error fault ↔ Rejected entry.addresses fault := by
  -- The cases follow the conversion, and each address that is one leaves the question to those after it.
  rw [Entry.block, Entry.addresses]
  cases started : entry.start.address with
  | error first =>
    rw [rejected_here _ _ first fault started]
    exact iff_of_eq (Except.error.injEq first fault)
  | ok start =>
    rw [rejected_later _ _ start fault started]
    cases stopped : entry.stop.address with
    | error first =>
      rw [rejected_here _ _ first fault stopped]
      exact iff_of_eq (Except.error.injEq first fault)
    | ok stop =>
      rw [rejected_later _ _ stop fault stopped]
      cases entry.target with
      | none => exact iff_of_false nofun (rejected_nil fault)
      | some target =>
        rw [Option.toList_some]
        dsimp only
        cases given : target.address with
        | error first =>
          rw [rejected_here _ _ first fault given]
          exact iff_of_eq (Except.error.injEq first fault)
        | ok target =>
          rw [rejected_later _ _ target fault given]
          exact iff_of_false nofun (rejected_nil fault)

theorem rejected_some (written : List Written) : (∃ one ∈ written, one.Unparsable) ↔ ∃ fault, Rejected written fault := by
  induction written with
  | nil => simp [rejected_nil]
  | cons first others ih =>
    simp only [List.mem_cons, exists_eq_or_imp, ih]
    rw [unparsable_iff]
    cases given : first.address with
    | error fault => simp [rejected_here first others fault _ given]
    | ok a => simp [rejected_later first others a _ given]

theorem unparsable_block (entry : Entry) : entry.Unparsable ↔ ∃ fault, entry.block = .error fault := by
  simp only [block_fault_iff]
  exact rejected_some entry.addresses

theorem blocks_from_ok_iff (offset : Nat) (entries : List Entry) (blocks : List Block) :
    blocksFrom offset entries = .ok blocks ↔ entries.map Entry.block = blocks.map .ok := by
  induction entries generalizing offset blocks with
  | nil =>
    rw [blocksFrom, List.map_nil, eq_comm, @eq_comm _ [], List.map_eq_nil_iff]
    exact iff_of_eq (Except.ok.injEq blocks [])
  | cons entry rest ih =>
    rw [blocksFrom, List.map_cons]
    cases shown : entry.block with
    | error fault => cases blocks <;> simp
    | ok block =>
      cases blocks with
      | nil => cases blocksFrom (offset + 1) rest <;> simp [Except.map]
      | cons first others =>
        rw [List.map_cons, List.cons.injEq, Except.ok.injEq, ← ih (offset + 1) others]
        cases blocksFrom (offset + 1) rest <;> simp [Except.map]

theorem blocks_from_fault_iff (offset : Nat) (entries : List Entry) (fault : Fault) :
    blocksFrom offset entries = .error fault ↔ ∃ index cause entry, fault = .address index cause ∧
      FirstFrom Entry.Unparsable offset entries index entry ∧ Rejected entry.addresses cause := by
  induction entries generalizing offset with
  | nil => simp [blocksFrom, first_from_nil]
  | cons entry rest ih =>
    rw [blocksFrom]
    cases shown : entry.block with
    | error cause =>
      have hit : entry.Unparsable := (unparsable_block entry).mpr ⟨cause, shown⟩
      simp only [first_from_here Entry.Unparsable entry rest hit, ← block_fault_iff]
      constructor
      · intro same
        exact ⟨offset, cause, entry, (Except.error.inj same).symm, ⟨rfl, rfl⟩, shown⟩
      · rintro ⟨_, _, _, rfl, ⟨rfl, rfl⟩, again⟩
        rw [Except.error.inj (shown.symm.trans again)]
    | ok block =>
      have missed : ¬ entry.Unparsable := by
        rw [unparsable_block, shown]
        simp
      simp only [first_from_later Entry.Unparsable entry rest missed, ← ih]
      cases blocksFrom (offset + 1) rest <;> simp [Except.map]

theorem convert_refused_iff (entries : List Entry) (fault : Fault) :
    convert entries = .error fault ↔ blocksFrom 0 entries = .error fault ∨
      ∃ blocks cause, blocksFrom 0 entries = .ok blocks ∧ BlockMap.ofList blocks = .error cause ∧ fault = .order cause := by
  rw [convert]
  cases blocksFrom 0 entries with
  | error first => simp
  | ok blocks =>
    dsimp only
    cases refused : BlockMap.ofList blocks <;> simp [refused, eq_comm]

theorem convert_fault_iff (entries : List Entry) (fault : Fault) : convert entries = .error fault ↔ FirstFault entries fault := by
  rw [convert_refused_iff, blocks_from_fault_iff]
  simp only [blocks_from_ok_iff, BlockMap.of_list_fault_iff, first_from_zero]
  cases fault with
  | unreadable cause => simp [FirstFault]
  | address index cause => simp [FirstFault, and_assoc]
  | order cause => simp [FirstFault]

theorem first_fault_reported (blocks : List Block) :
    ((∃ map, BlockMap.ofList blocks = .ok map) ↔ BlockMap.Filled blocks ∧ BlockMap.Stacked blocks) ∧
      (∀ map, BlockMap.ofList blocks = .ok map → map.toList = blocks) ∧
      (∀ fault, BlockMap.ofList blocks = .error fault ↔ BlockMap.FirstFault blocks fault) ∧
      ∀ input entries, read input = .ok entries → ∀ fault, parse input = .error fault ↔ FirstFault entries fault := by
  refine ⟨BlockMap.accepted_iff blocks, BlockMap.of_list_kept blocks, BlockMap.of_list_fault_iff blocks, ?_⟩
  intro input entries found fault
  rw [parse, found]
  exact convert_fault_iff entries fault

def faultyText : Bytes := Json.ascii
  "\x7b\"blocks\":[\x7b\"start\":64,\"end\":32\x7d, \x7b\"target\":\"?\",\"end\":\"0xg\",\"start\":\"16\"\x7d, [\"\", 8]]\x7d"

def faultyEntries : List Entry :=
  [⟨.number 64, .number 32, none, false, false⟩, ⟨.text "16", .text "0xg", some (.text "?"), false, false⟩,
    ⟨.text "", .number 8, none, false, false⟩]

theorem first_fault_reported_mixed :
    let crossed : List Block := [⟨0x10, 0x30, 0, 0⟩, ⟨0x20, 0x28, 0, 0⟩, ⟨0x40, 0x40, 0, 0⟩]
    read faultyText = .ok faultyEntries ∧ parse faultyText = .error (.address 1 ⟨"0xg", .invalidDigit⟩) ∧
      BlockMap.ofList crossed = .error (.emptyRange 2 ⟨0x40, 0x40, 0, 0⟩) := by
  intro crossed
  have found : read faultyText = .ok faultyEntries := by decide +kernel
  obtain ⟨-, -, faults, reported⟩ := first_fault_reported crossed
  refine ⟨found, (reported faultyText faultyEntries found _).mpr ?_, (faults _).mpr ?_⟩
  · have refused : Entry.block ⟨.text "16", .text "0xg", some (.text "?"), false, false⟩ =
        .error ⟨"0xg", .invalidDigit⟩ := by decide
    refine ⟨_, ⟨rfl, (unparsable_block _).mpr ⟨_, refused⟩, fun entry member => ?_⟩, (block_fault_iff _ _).mp refused⟩
    obtain rfl : entry = ⟨.number 64, .number 32, none, false, false⟩ := List.mem_singleton.mp member
    rw [unparsable_block]
    rintro ⟨fault, impossible⟩
    cases impossible
  · refine ⟨rfl, UInt64.le_refl _, fun block member => UInt64.not_le.mpr ?_⟩
    obtain rfl | rfl : block = ⟨0x10, 0x30, 0, 0⟩ ∨ block = ⟨0x20, 0x28, 0, 0⟩ := by simpa [crossed] using member
    all_goals decide

end FunctionDiscovery.Listing
