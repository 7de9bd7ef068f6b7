import FunctionDiscovery.Image.Load
import Mathlib.Data.List.Range

set_option autoImplicit false

namespace FunctionDiscovery

theorem Bytes.slice_eq (bytes piece : Bytes) (offset length : Nat) (found : bytes.slice? offset length = some piece) :
    piece = (bytes.drop offset).take length := by
  rw [slice?] at found
  split at found
  · exact (Option.some.inj found).symm
  · simp at found

theorem Bytes.slice_bound (bytes piece : Bytes) (offset length : Nat) (found : bytes.slice? offset length = some piece) :
    offset + length ≤ bytes.length := by
  rw [slice?] at found
  split at found
  · rename_i inside
    obtain ⟨first, size⟩ := inside
    rw [List.length_take, List.length_drop] at size
    omega
  · simp at found

theorem Bytes.piece_piece (bytes : Bytes) (offset length first width : Nat) (inside : first + width ≤ length) :
    (((bytes.drop offset).take length).drop first).take width = (bytes.drop (offset + first)).take width := by
  have room : min width (length - first) = width := by omega
  rw [List.drop_take, List.take_take, List.drop_drop, room]

namespace Image

def sectionHeaders (data : Bytes) : List Bytes :=
  let offset := word data 60 4
  let first := offset + fileHeaderSize + word data (offset + 20) 2
  (List.range (word data (offset + 6) 2)).map fun index =>
    (data.drop (first + sectionHeaderSize * index)).take sectionHeaderSize

theorem word_piece (data : Bytes) (offset length first width : Nat) (inside : first + width ≤ length) :
    word ((data.drop offset).take length) first width = word data (offset + first) width := by
  rw [word, word, Bytes.piece_piece data offset length first width inside]

theorem records_eq {α : Type} (size : Nat) (read : Bytes → α) (count : Nat) (bytes : Bytes) :
    records size read count bytes = (List.range count).map fun index => read ((bytes.drop (size * index)).take size) := by
  induction count generalizing bytes with
  | zero => rfl
  | succ count ih =>
    rw [records, ih, List.range_succ_eq_map, List.map_cons, List.map_map]
    congr 1
    refine List.map_congr_left fun index _ => ?_
    have next : size + size * index = size * (index + 1) := by rw [Nat.mul_succ, Nat.add_comm]
    rw [List.drop_drop, next, Function.comp_apply]

theorem header_offset_eq (data : Bytes) (offset : Nat) (found : headerOffset? data = some offset) :
    offset = word data 60 4 := by
  rw [headerOffset?] at found
  split at found
  · simp at found
  · rw [Bytes.field?, Option.map_eq_some_iff] at found
    obtain ⟨piece, slice, value⟩ := found
    rw [← value, Bytes.slice_eq data piece 60 4 slice, word]

theorem parse_cases (kind : Kind) (data : Bytes) (image : Image) (parsed : parse kind data = .ok image) :
    ∃ offset headers table, headerOffset? data = some offset ∧
      data.slice? offset (fileHeaderSize + kind.optionalHeaderSize) = some headers ∧
      data.slice? (offset + fileHeaderSize + word headers 20 2) (word headers 6 2 * sectionHeaderSize) = some table ∧
      image.data = data ∧
      image.sections = records sectionHeaderSize (readSection data.length) (word headers 6 2) table := by
  rw [parse] at parsed
  cases atOffset : headerOffset? data with
  | none => simp [atOffset] at parsed
  | some offset =>
    simp only [atOffset] at parsed
    cases headersAt : data.slice? offset (fileHeaderSize + kind.optionalHeaderSize) with
    | none => simp [headersAt] at parsed
    | some headers =>
      simp only [headersAt] at parsed
      by_cases small : word headers 20 2 < kind.optionalHeaderSize
      · simp [small, bind, Except.bind] at parsed
      · rw [if_neg small] at parsed
        split at parsed
        · rename_i tables _
          by_cases few : tables.length < directoryCount kind (headers.drop fileHeaderSize) * directorySize
          · simp [few, bind, Except.bind] at parsed
          · rw [if_neg few] at parsed
            split at parsed
            · rename_i table found
              obtain rfl := Except.ok.inj parsed
              exact ⟨offset, headers, table, rfl, headersAt, found, rfl, rfl⟩
            · simp at parsed
        · simp at parsed

theorem parse_table (kind : Kind) (data : Bytes) (image : Image) (parsed : parse kind data = .ok image) :
    ∃ table, data.slice? (word data 60 4 + fileHeaderSize + word data (word data 60 4 + 20) 2)
        (word data (word data 60 4 + 6) 2 * sectionHeaderSize) = some table ∧
      image.data = data ∧
      image.sections = records sectionHeaderSize (readSection data.length) (word data (word data 60 4 + 6) 2) table := by
  obtain ⟨offset, headers, table, atOffset, headersAt, tableAt, same, sections⟩ := parse_cases kind data image parsed
  have start := header_offset_eq data offset atOffset
  have headersEq := Bytes.slice_eq data headers _ _ headersAt
  have count : word headers 6 2 = word data (offset + 6) 2 := by
    rw [headersEq]
    exact word_piece data offset _ 6 2 (by simp only [fileHeaderSize]; omega)
  have optional : word headers 20 2 = word data (offset + 20) 2 := by
    rw [headersEq]
    exact word_piece data offset _ 20 2 (by simp only [fileHeaderSize]; omega)
  rw [count, optional, start] at tableAt
  rw [count, start] at sections
  exact ⟨table, tableAt, same, sections⟩

theorem accepted_table (name : String) (data : Bytes) (image : Image) (loaded : ofFile name (.ok data) = .ok image) :
    ∃ table, data.slice? (word data 60 4 + fileHeaderSize + word data (word data 60 4 + 20) 2)
        (word data (word data 60 4 + 6) 2 * sectionHeaderSize) = some table ∧
      image.data = data ∧
      image.sections = records sectionHeaderSize (readSection data.length) (word data (word data 60 4 + 6) 2) table := by
  rw [ofFile] at loaded
  split at loaded
  · simp at loaded
  · simp at loaded
  · exact parse_table _ data image loaded

theorem header_in_table (count index : Nat) (counted : index < count) :
    sectionHeaderSize * index + sectionHeaderSize ≤ count * sectionHeaderSize := by
  rw [Nat.mul_comm count sectionHeaderSize, ← Nat.mul_succ]
  exact Nat.mul_le_mul_left _ counted

theorem accepted_sections (name : String) (data : Bytes) (image : Image) (loaded : ofFile name (.ok data) = .ok image) :
    image.data = data ∧ image.sections = (sectionHeaders data).map (readSection data.length) := by
  obtain ⟨table, tableAt, same, sections⟩ := accepted_table name data image loaded
  refine ⟨same, ?_⟩
  rw [sections, records_eq, sectionHeaders, List.map_map, Bytes.slice_eq data table _ _ tableAt]
  refine List.map_congr_left fun index member => ?_
  rw [Bytes.piece_piece data _ _ _ _ (header_in_table _ index (List.mem_range.mp member)), Function.comp_apply]

theorem accepted_headers (name : String) (data : Bytes) (image : Image) (loaded : ofFile name (.ok data) = .ok image) :
    ∀ header ∈ sectionHeaders data, header.length = sectionHeaderSize := by
  obtain ⟨table, tableAt, -⟩ := accepted_table name data image loaded
  have bound := Bytes.slice_bound data table _ _ tableAt
  intro header listed
  obtain ⟨index, counted, rfl⟩ := List.mem_map.mp listed
  have inTable := header_in_table _ index (List.mem_range.mp counted)
  rw [List.length_take_of_le]
  rw [List.length_drop]
  omega

end Image

end FunctionDiscovery
