import FunctionDiscovery.Proofs.PointerCells
import FunctionDiscovery.Proofs.StoredRecords

set_option autoImplicit false

namespace FunctionDiscovery

namespace Bytes

theorem to_nat_bound (bytes : Bytes) : bytes.toNat < 256 ^ bytes.length := by
  induction bytes with
  | nil => decide
  | cons b rest ih =>
    have byte := b.toNat_lt
    rw [toNat, List.length_cons, Nat.pow_succ]
    omega

theorem of_nat_to_nat (bytes : Bytes) : ofNat bytes.length bytes.toNat = bytes := by
  induction bytes with
  | nil => rfl
  | cons b rest ih =>
    have byte := b.toNat_lt
    have low : (b.toNat + 256 * toNat rest) % 256 = b.toNat := by omega
    have high : (b.toNat + 256 * toNat rest) / 256 = toNat rest := by omega
    rw [List.length_cons, toNat, ofNat, low, high, ih, UInt8.ofNat_toNat]

end Bytes

namespace RuntimeFunction

theorem four_bytes : 256 ^ 4 = UInt32.size := by decide

theorem word_stored (a b c d : UInt8) : Bytes.ofNat 4 (word a b c d).toNat = [a, b, c, d] := by
  have bound := Bytes.to_nat_bound [a, b, c, d]
  rw [word, UInt32.toNat_ofNat_of_lt' (Nat.lt_of_lt_of_eq bound four_bytes)]
  exact Bytes.of_nat_to_nat [a, b, c, d]

theorem stored_word (x : UInt32) (a b c d : UInt8) (stored : Bytes.ofNat 4 x.toNat = [a, b, c, d]) : word a b c d = x := by
  have bound : x.toNat < 256 ^ 4 := Nat.lt_of_lt_of_eq x.toNat_lt four_bytes.symm
  rw [word, ← stored, Bytes.to_nat_of_nat, Nat.mod_eq_of_lt bound, UInt32.ofNat_toNat]

theorem decode_encoded (record : RuntimeFunction) (rest : Bytes) :
    decodeAll (encode record ++ rest) = record :: decodeAll rest := by
  have first : decodeAll (encode record ++ rest) = ⟨_, _, _⟩ :: decodeAll rest := rfl
  rw [first, stored_word record.start _ _ _ _ rfl, stored_word record.stop _ _ _ _ rfl, stored_word record.unwind _ _ _ _ rfl]

theorem encode_decoded (chunk rest : Bytes) (full : chunk.length = recordSize) :
    ∃ record, decodeAll (chunk ++ rest) = record :: decodeAll rest ∧ encode record = chunk := by
  match chunk, full with
  | [a, b, c, d, e, f, g, h, i, j, k, l], _ =>
    refine ⟨⟨word a b c d, word e f g h, word i j k l⟩, rfl, ?_⟩
    rw [encode, word_stored, word_stored, word_stored]
    rfl

theorem decode_encoded_all (records : List RuntimeFunction) (tail : Bytes) (short : tail.length < recordSize) :
    decodeAll (encodeAll records ++ tail) = records := by
  induction records with
  | nil => exact decode_short tail short
  | cons record others ih =>
    rw [encodeAll, List.flatMap_cons, ← encodeAll, List.append_assoc, decode_encoded, ih]

theorem encode_decoded_all (bytes : Bytes) :
    encodeAll (decodeAll bytes) = bytes.take (recordSize * (bytes.length / recordSize)) := by
  induction bytes using record_induction with
  | short bytes short =>
    rw [decode_short bytes short, Nat.div_eq_of_lt short]
    rfl
  | record chunk rest full ih =>
    obtain ⟨record, decoded, encoded⟩ := encode_decoded chunk rest full
    have count : (chunk ++ rest).length / recordSize = rest.length / recordSize + 1 := by
      rw [List.length_append, full]
      exact Nat.add_div_left rest.length (by decide)
    have length : recordSize * (rest.length / recordSize + 1) = chunk.length + recordSize * (rest.length / recordSize) := by
      rw [full, Nat.mul_succ, Nat.add_comm]
    rw [decoded, encodeAll, List.flatMap_cons, ← encodeAll, encoded, ih, count, length, List.take_length_add_append]

theorem decode_length (bytes : Bytes) : (decodeAll bytes).length = bytes.length / recordSize := by
  rw [decode_all_stored, stored, List.length_map, List.length_range]

theorem codec_inverse (records : List RuntimeFunction) (tail bytes : Bytes) (short : tail.length < recordSize) :
    decodeAll (encodeAll records ++ tail) = records ∧ (decodeAll bytes).length = bytes.length / recordSize ∧
      encodeAll (decodeAll bytes) = bytes.take (recordSize * (bytes.length / recordSize)) :=
  ⟨decode_encoded_all records tail short, decode_length bytes, encode_decoded_all bytes⟩

theorem codec_inverse_cut :
    let records : List RuntimeFunction := [⟨0xffffffff, 0, 0x01020304⟩, ⟨0x80, 0x100, 0xff00⟩]
    let tail : Bytes := List.replicate 11 0xaa
    let bytes : Bytes := [0, 1, 2, 3, 4, 5, 6, 7, 8, 9, 10, 11, 12, 13]
    tail.length < recordSize ∧ decodeAll (encodeAll records ++ tail) = records ∧ (decodeAll bytes).length = 1 ∧
      encodeAll (decodeAll bytes) = [0, 1, 2, 3, 4, 5, 6, 7, 8, 9, 10, 11] := by
  intro records tail bytes
  have short : tail.length < recordSize := by decide
  obtain ⟨decoded, count, encoded⟩ := codec_inverse records tail bytes short
  exact ⟨short, decoded, count.trans (by decide), encoded.trans (by decide)⟩

end RuntimeFunction

end FunctionDiscovery
