import FunctionDiscovery.Address
import Mathlib.Tactic.IntervalCases

set_option autoImplicit false

namespace FunctionDiscovery

theorem char_below {bound : Nat} {P : Char → Prop} (each : ∀ n < bound, P (Char.ofNat n)) (c : Char) (below : c.toNat < bound) :
    P c := by
  have holds := each c.toNat below
  rwa [Char.ofNat_toNat] at holds

namespace Numeral

theorem digit_of_char (base d : Nat) (small : base ≤ 16) (below : d < base) : digit? base (Nat.digitChar d) = some d := by
  have bound : d < 16 := Nat.lt_of_lt_of_le below small
  have value : ∀ d < 16,
      (if '0' ≤ Nat.digitChar d ∧ Nat.digitChar d ≤ '9' then (Nat.digitChar d).toNat - '0'.toNat
        else if 'a' ≤ Nat.digitChar d ∧ Nat.digitChar d ≤ 'z' then (Nat.digitChar d).toNat - 'a'.toNat + 10
        else if 'A' ≤ Nat.digitChar d ∧ Nat.digitChar d ≤ 'Z' then (Nat.digitChar d).toNat - 'A'.toNat + 10
        else base) = d := by
    intro d bound
    interval_cases d <;> rfl
  rw [digit?, value d bound, if_pos below]

theorem digit_lower (c : Char) : digit? 16 c.toLower = digit? 16 c := by
  by_cases capital : c.val ≥ 'A'.val ∧ c.val ≤ 'Z'.val
  · have bound : c.toNat < 0x5b := Nat.lt_succ_of_le (UInt32.le_iff_toNat_le.mp capital.2)
    exact char_below (P := fun c => digit? 16 c.toLower = digit? 16 c) (by decide) c bound
  · have same : c.toLower = c := dif_neg capital
    rw [same]

theorem extend_append (base limit value : Nat) (front back : List Char) :
    extend base limit value (front ++ back) = (extend base limit value front).bind fun value => extend base limit value back := by
  induction front generalizing value with
  | nil => rfl
  | cons c rest ih =>
    rw [List.cons_append, extend, extend]
    cases digit? base c with
    | none => rfl
    | some d =>
      by_cases room : value * base + d < limit
      · simp only [if_pos room, ih]
      · simp only [if_neg room]
        rfl

theorem extend_zeros (base limit zeros : Nat) (digits : List Char) (positive : 0 < base) (small : base ≤ 16)
    (room : 0 < limit) : extend base limit 0 (List.replicate zeros '0' ++ digits) = extend base limit 0 digits := by
  induction zeros with
  | zero => rfl
  | succ zeros ih =>
    have zero : digit? base '0' = some 0 := digit_of_char base 0 small positive
    rw [List.replicate_succ, List.cons_append, extend, zero]
    simp only [Nat.zero_mul, Nat.add_zero, if_pos room]
    exact ih

theorem extend_lower (limit value : Nat) (digits : List Char) :
    extend 16 limit value (digits.map Char.toLower) = extend 16 limit value digits := by
  induction digits generalizing value with
  | nil => rfl
  | cons c rest ih =>
    rw [List.map_cons, extend, extend, digit_lower]
    simp only [ih]

theorem extend_digits (base limit n : Nat) (binary : 1 < base) (small : base ≤ 16) (below : n < limit) :
    extend base limit 0 (Nat.toDigits base n) = .ok n := by
  induction n using Nat.strongRecOn with
  | ind n ih =>
    rw [Nat.toDigits_eq_if binary]
    by_cases single : n < base
    · rw [if_pos single, extend, digit_of_char base n small single]
      simp only [Nat.zero_mul, Nat.zero_add, if_pos below, extend]
    · have less : n / base < n := Nat.div_lt_self (by omega) binary
      have last : n % base < base := Nat.mod_lt n (by omega)
      have whole : n / base * base + n % base = n := by rw [Nat.mul_comm]; exact Nat.div_add_mod n base
      rw [if_neg single, extend_append, ih (n / base) less (by omega)]
      simp only [Except.bind, extend, digit_of_char base _ small last, whole, if_pos below]

-- No sign is a digit, so that digits which can be read do not start with one.
theorem parse_digits (base limit n : Nat) (digits : List Char) (present : digits ≠ [])
    (extended : extend base limit 0 digits = .ok n) : parse base limit digits = .ok n := by
  cases digits with
  | nil => exact absurd rfl present
  | cons c rest =>
    have unsigned : c ≠ '+' := by
      intro plus
      have refused : digit? base '+' = none := by simp [digit?]
      simp [plus, extend, refused] at extended
    rw [parse.eq_def]
    split
    · simp_all
    · simp_all
    · simp_all
    · exact extended

def Hex (n : Nat) (digits : List Char) : Prop :=
  ∃ zeros, digits.map Char.toLower = List.replicate zeros '0' ++ Nat.toDigits 16 n

theorem parse_hex (limit n : Nat) (digits : List Char) (hex : Hex n digits) (below : n < limit) :
    parse 16 limit digits = .ok n := by
  obtain ⟨zeros, lowered⟩ := hex
  apply parse_digits
  · intro empty
    rw [empty, List.map_nil] at lowered
    have none := (List.append_eq_nil_iff.mp lowered.symm).2
    exact Nat.toDigits_ne_nil none
  · rw [← extend_lower, lowered, extend_zeros 16 limit zeros _ (by decide) (by decide) (by omega)]
    exact extend_digits 16 limit n (by decide) (by decide) below

end Numeral

theorem letter_bound (c : Char) (letter : c.isAlphanum = true) : c.toNat < 0x7b := by
  delta Char.isAlphanum Char.isAlpha Char.isUpper Char.isLower Char.isDigit at letter
  simp only [Bool.or_eq_true, Bool.and_eq_true, decide_eq_true_eq, ge_iff_le, UInt32.le_iff_toNat_le] at letter
  have value : c.toNat = c.val.toNat := rfl
  simp only [Char.reduceVal, UInt32.reduceToNat] at letter
  omega

theorem letter_not_blank (c : Char) (letter : c.isAlphanum = true) : Text.isBlank c = false := by
  have letters : c.isAlphanum = true → Text.isBlank c = false :=
    char_below (P := fun c => c.isAlphanum = true → Text.isBlank c = false) (by decide) c (letter_bound c letter)
  exact letters letter

theorem trim_letters (text : List Char) (letters : ∀ c ∈ text, c.isAlphanum = true) : Text.trim text = text := by
  have kept (text : List Char) (letters : ∀ c ∈ text, c.isAlphanum = true) : text.dropWhile Text.isBlank = text := by
    cases text with
    | nil => rfl
    | cons c rest => simp [letter_not_blank c (letters c List.mem_cons_self)]
  rw [Text.trim, kept text letters, kept text.reverse (by simpa using letters), List.reverse_reverse]

theorem Address.parse_hex (a : Address) (digits : List Char) (hex : Numeral.Hex a.toNat digits)
    (letters : ∀ c ∈ digits, c.isAlphanum = true) : Address.parse (String.ofList ('0' :: 'x' :: digits)) = .ok a := by
  have trimmed : Text.trim ('0' :: 'x' :: digits) = '0' :: 'x' :: digits := by
    apply trim_letters
    simpa using letters
  have read : numeral ('0' :: 'x' :: digits) = .ok a.toNat := Numeral.parse_hex _ _ digits hex a.toNat_lt
  rw [Address.parse, String.toList_ofList, trimmed, read]
  exact congrArg Except.ok UInt64.ofNat_toNat

end FunctionDiscovery
