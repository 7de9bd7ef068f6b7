import FunctionDiscovery.RuntimeFunction
import Mathlib.Data.List.GetD

set_option autoImplicit false

namespace FunctionDiscovery.RuntimeFunction

def recordSize : Nat := 12

def ofBytes (byte : Nat → UInt8) : RuntimeFunction :=
  ⟨word (byte 0) (byte 1) (byte 2) (byte 3), word (byte 4) (byte 5) (byte 6) (byte 7),
    word (byte 8) (byte 9) (byte 10) (byte 11)⟩

def stored (length : Nat) (byte : Nat → UInt8) : List RuntimeFunction :=
  (List.range (length / recordSize)).map fun index => ofBytes fun k => byte (recordSize * index + k)

theorem of_bytes_congr (byte other : Nat → UInt8) (agree : ∀ k < recordSize, byte k = other k) :
    ofBytes byte = ofBytes other := by
  simp (disch := decide) only [ofBytes, agree]

theorem stored_congr (length : Nat) (byte other : Nat → UInt8) (agree : ∀ k < length, byte k = other k) :
    stored length byte = stored length other := by
  refine List.map_congr_left fun index member => of_bytes_congr _ _ fun k bound => agree _ ?_
  have whole := Nat.mul_le_of_le_div recordSize (index + 1) length (List.mem_range.mp member)
  rw [Nat.mul_comm, Nat.mul_succ] at whole
  omega

theorem decode_short (bytes : Bytes) (short : bytes.length < recordSize) : decodeAll bytes = [] := by
  rw [decodeAll.eq_def]
  split
  · simp only [List.length_cons, recordSize] at short
    omega
  · rfl

theorem decode_first (chunk rest : Bytes) (full : chunk.length = recordSize) :
    decodeAll (chunk ++ rest) = ofBytes (fun k => (chunk ++ rest).getD k 0) :: decodeAll rest := by
  match chunk, full with
  | [_, _, _, _, _, _, _, _, _, _, _, _], _ => rfl

theorem stored_first (length : Nat) (byte : Nat → UInt8) :
    stored (recordSize + length) byte = ofBytes byte :: stored length fun k => byte (recordSize + k) := by
  have count : (recordSize + length) / recordSize = length / recordSize + 1 := Nat.add_div_left length (by decide)
  rw [stored, stored, count, List.range_succ_eq_map, List.map_cons, List.map_map]
  congr 1
  refine List.map_congr_left fun index _ => ?_
  have next (k : Nat) : recordSize * (index + 1) + k = recordSize + (recordSize * index + k) := by
    rw [Nat.mul_succ]
    omega
  simp only [Function.comp_apply, Nat.succ_eq_add_one, next]

theorem record_induction {motive : Bytes → Prop} (short : ∀ bytes, bytes.length < recordSize → motive bytes)
    (record : ∀ chunk rest, chunk.length = recordSize → motive rest → motive (chunk ++ rest)) (bytes : Bytes) :
    motive bytes := by
  by_cases less : bytes.length < recordSize
  · exact short bytes less
  · have full : (bytes.take recordSize).length = recordSize := by
      rw [List.length_take]
      omega
    have whole := record _ (bytes.drop recordSize) full (record_induction short record (bytes.drop recordSize))
    rwa [List.take_append_drop] at whole
termination_by bytes.length
decreasing_by
  rw [List.length_drop]
  simp only [recordSize] at less ⊢
  omega

theorem decode_all_stored (bytes : Bytes) : decodeAll bytes = stored bytes.length fun k => bytes.getD k 0 := by
  induction bytes using record_induction with
  | short bytes short =>
    rw [decode_short bytes short, stored, Nat.div_eq_of_lt short]
    rfl
  | record chunk rest full ih =>
    have later (k : Nat) : (chunk ++ rest).getD (recordSize + k) 0 = rest.getD k 0 := by
      rw [← full, List.getD_append_right _ _ _ _ (Nat.le_add_right _ _), Nat.add_sub_cancel_left]
    rw [decode_first chunk rest full, ih, List.length_append, full, stored_first]
    simp only [later]

end FunctionDiscovery.RuntimeFunction
