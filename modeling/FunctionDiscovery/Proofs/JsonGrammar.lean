import FunctionDiscovery.Json.Value
import FunctionDiscovery.Proofs.NumeralText

set_option autoImplicit false

namespace FunctionDiscovery.Json

def Blanks (bytes : Bytes) : Prop := ∀ b ∈ bytes, isBlank b = true

instance (bytes : Bytes) : Decidable (Blanks bytes) := List.decidableBAll _ bytes

theorem skip_blanks (blanks rest : Bytes) (blank : Blanks blanks) : skipBlank (blanks ++ rest) = skipBlank rest :=
  List.dropWhile_append_of_pos blank

theorem skip_none (b : UInt8) (rest : Bytes) (other : isBlank b = false) : skipBlank (b :: rest) = b :: rest := by
  rw [skipBlank, List.dropWhile_cons, other]
  rfl

def octet (c : Char) : UInt8 := c.toNat.toUInt8

inductive Spelled : List Char → Bytes → Prop
  | nil : Spelled [] []
  | plain (c : Char) (text : List Char) (bytes : Bytes) (letter : c.isAlphanum = true) (rest : Spelled text bytes) :
      Spelled (c :: text) (octet c :: bytes)
  | coded (c : Char) (text : List Char) (bytes : Bytes) (a b d e : UInt8) (letter : c.isAlphanum = true)
      (code : unit? a b d e = some c.toNat) (rest : Spelled text bytes) :
      Spelled (c :: text) (backslash :: letterU :: a :: b :: d :: e :: bytes)

theorem spelled_letters (text : List Char) (bytes : Bytes) (spelled : Spelled text bytes) : ∀ c ∈ text, c.isAlphanum = true := by
  induction spelled with
  | nil => simp
  | plain c text bytes letter _ ih => exact List.forall_mem_cons.mpr ⟨letter, ih⟩
  | coded c text bytes a b d e letter _ _ ih => exact List.forall_mem_cons.mpr ⟨letter, ih⟩

theorem spelled_plain (text : List Char) (letters : text.all Char.isAlphanum = true) : Spelled text (text.map octet) := by
  induction text with
  | nil => exact .nil
  | cons c text ih =>
    rw [List.all_cons, Bool.and_eq_true] at letters
    exact .plain c text _ letters.1 (ih letters.2)

theorem octet_to_nat (c : Char) (letter : c.isAlphanum = true) : (octet c).toNat = c.toNat := by
  have bound := letter_bound c letter
  exact Nat.mod_eq_of_lt (by omega)

def Plain (b : UInt8) : Prop := b ≠ quote ∧ b ≠ backslash ∧ ¬ b < 0x20 ∧ b < 0x80

instance (b : UInt8) : Decidable (Plain b) := inferInstanceAs (Decidable (_ ∧ _))

theorem octet_plain (c : Char) (letter : c.isAlphanum = true) : Plain (octet c) := by
  have letters : c.isAlphanum = true → Plain (octet c) :=
    char_below (P := fun c => c.isAlphanum = true → Plain (octet c)) (by decide) c (letter_bound c letter)
  exact letters letter

theorem content_plain (care : Care) (c : Char) (letter : c.isAlphanum = true) (rest : Bytes) :
    content care (octet c :: rest) = prepend [octet c] (content care rest) := by
  obtain ⟨notQuote, notBackslash, printed, -⟩ := octet_plain c letter
  rw [content.eq_7 care (octet c) rest notQuote (fun escape => absurd escape notBackslash)
    (fun _ _ _ _ _ escape => absurd escape notBackslash) (fun _ escape => absurd escape notBackslash)
    (fun _ _ escape => absurd escape notBackslash), if_neg printed]

theorem content_coded (depth : Nat) (c : Char) (a b d e : UInt8) (letter : c.isAlphanum = true)
    (code : unit? a b d e = some c.toNat) (rest : Bytes) :
    content (.kept depth) (backslash :: letterU :: a :: b :: d :: e :: rest) =
      prepend [octet c] (content (.kept depth) rest) := by
  have bound := letter_bound c letter
  have trailing : isTrailing c.toNat = false := by simp [isTrailing]; omega
  have leading : isLeading c.toNat = false := by simp [isLeading]; omega
  have encoded : Utf8.encode c.toNat = [octet c] := by rw [Utf8.encode, if_pos (by omega)]; rfl
  refine (content.eq_4 (.kept depth) a b d e rest).trans ?_
  simp [code, trailing, leading, encoded]

theorem content_spelled (depth : Nat) (text : List Char) (bytes rest : Bytes) (spelled : Spelled text bytes) :
    content (.kept depth) (bytes ++ quote :: rest) = .ok (text.map octet, rest) := by
  induction spelled with
  | nil => rfl
  | plain c text bytes letter _ ih =>
    rw [List.cons_append, content_plain _ c letter, ih]
    rfl
  | coded c text bytes a b d e letter code _ ih =>
    simp only [List.cons_append]
    rw [content_coded depth c a b d e letter code, ih]
    rfl

theorem scan_letters (text : List Char) (letters : ∀ c ∈ text, c.isAlphanum = true) :
    (Utf8.scan 0 0 0 0 (text.map octet)).mapM id = some text := by
  induction text with
  | nil => rfl
  | cons c rest ih =>
    obtain ⟨letter, others⟩ := List.forall_mem_cons.mp letters
    have single : Utf8.tail? (octet c) = some ⟨0, 0x80, 0xbf⟩ := if_pos (octet_plain c letter).2.2.2
    have value : Char.ofNat (octet c).toNat = c := by rw [octet_to_nat c letter, Char.ofNat_toNat]
    rw [List.map_cons, Utf8.scan]
    simp [single, value, ih others]

theorem text_spelled (depth : Nat) (spelling : List Char) (bytes rest : Bytes) (spelled : Spelled spelling bytes) :
    text (.kept depth) (bytes ++ quote :: rest) = .ok (String.ofList spelling, rest) := by
  have decoded : Utf8.decode? (spelling.map octet) = some (String.ofList spelling) := by
    rw [Utf8.decode?, Utf8.pieces, scan_letters spelling (spelled_letters spelling bytes spelled), Option.map_some]
  rw [text, content_spelled depth spelling bytes rest spelled]
  simp only [decoded]

def Ends (rest : Bytes) : Prop :=
  ∃ b more, rest = b :: more ∧ (isBlank b = true ∨ b = comma ∨ b = closeBracket ∨ b = closeBrace)

theorem ends_cases (rest : Bytes) (ends : Ends rest) :
    ∃ b more, rest = b :: more ∧
      (b = 0x20 ∨ b = 0x0a ∨ b = 0x0d ∨ b = 0x09 ∨ b = comma ∨ b = closeBracket ∨ b = closeBrace) := by
  obtain ⟨b, more, rfl, kinds⟩ := ends
  refine ⟨b, more, rfl, ?_⟩
  simpa [isBlank, or_assoc] using kinds

theorem digits_run (cut : Fault) (run rest : Bytes) (present : run ≠ []) (all : ∀ b ∈ run, isDigit b = true)
    (ends : Ends rest) : digits cut (run ++ rest) = .ok (run, rest) := by
  obtain ⟨b, more, rfl, kinds⟩ := ends_cases rest ends
  have other : isDigit b = false := by rcases kinds with rfl | rfl | rfl | rfl | rfl | rfl | rfl <;> rfl
  have taken : (run ++ b :: more).takeWhile isDigit = run := by
    rw [List.takeWhile_append_of_pos all, List.takeWhile_cons_of_neg (by simp [other]), List.append_nil]
  have left : (run ++ b :: more).dropWhile isDigit = b :: more := by
    rw [List.dropWhile_append_of_pos all, List.dropWhile_cons_of_neg (by simp [other])]
  rw [digits, taken, left]
  cases run with
  | nil => exact absurd rfl present
  | cons first others => rfl

theorem fraction_none (cut : Fault) (rest : Bytes) (ends : Ends rest) : fractionDigits cut rest = .ok (none, rest) := by
  obtain ⟨b, more, rfl, kinds⟩ := ends_cases rest ends
  rcases kinds with rfl | rfl | rfl | rfl | rfl | rfl | rfl <;> rfl

theorem exponent_none (cut : Fault) (rest : Bytes) (ends : Ends rest) : exponentDigits cut rest = .ok (none, rest) := by
  obtain ⟨b, more, rfl, kinds⟩ := ends_cases rest ends
  rcases kinds with rfl | rfl | rfl | rfl | rfl | rfl | rfl <;> rfl

def Whole (run : Bytes) : Prop := run ≠ [] ∧ (∀ b ∈ run, isDigit b = true) ∧ ∀ b others, run ≠ zero :: b :: others

theorem literal_whole (cut : Fault) (run rest : Bytes) (whole : Whole run) (ends : Ends rest) :
    literal cut (run ++ rest) = .ok (⟨false, run, none, none⟩, rest) := by
  obtain ⟨present, all, single⟩ := whole
  have unsigned : ∀ input, run ++ rest = minus :: input → False := by
    intro input same
    cases run with
    | nil => exact present rfl
    | cons first others =>
      rw [List.cons_append, List.cons.injEq] at same
      have digit := all first List.mem_cons_self
      rw [same.1] at digit
      exact absurd digit (by decide)
  have taken : wholeDigits cut (run ++ rest) = .ok (run, rest) := by
    rw [wholeDigits, digits_run cut run rest present all ends]
    simp only [bind, Except.bind]
    split
    · exact absurd rfl (single _ _)
    · rfl
  rw [literal.eq_2 cut (run ++ rest) unsigned]
  simp only [taken, fraction_none cut rest ends, exponent_none cut rest ends, bind, Except.bind]

theorem value_grows (n : Nat) (run : Bytes) : n ≤ run.foldl (fun n b => n * 10 + digitValue b) n := by
  induction run generalizing n with
  | nil => exact Nat.le_refl n
  | cons b rest ih => exact Nat.le_trans (by omega) (ih (n * 10 + digitValue b))

theorem absorb_all (n : Nat) (run : Bytes) (below : run.foldl (fun n b => n * 10 + digitValue b) n < UInt64.size) :
    absorb n run = (run.foldl (fun n b => n * 10 + digitValue b) n, []) := by
  induction run generalizing n with
  | nil => rfl
  | cons b rest ih =>
    have room : n * 10 + digitValue b < UInt64.size := Nat.lt_of_le_of_lt (value_grows _ rest) below
    rw [absorb, if_pos room, ih _ below]
    rfl

theorem round_bound (n : Nat) : roundDouble n ≤ 2 * n := by
  by_cases positive : n = 0
  · rw [positive]
    decide
  · have atMost : Nat.pow 2 (n.log2 - 52) ≤ n :=
      Nat.le_trans (Nat.pow_le_pow_right (by decide) (Nat.sub_le _ _)) (Nat.log2_self_le positive)
    rw [roundDouble]
    generalize Nat.pow 2 (n.log2 - 52) = unit at *
    have below : n / unit * unit ≤ n := Nat.div_mul_le_self n unit
    have next : (n / unit + 1) * unit ≤ 2 * n := by
      rw [Nat.succ_mul]
      omega
    by_cases down : 2 * (n % unit) < unit
    · rw [if_pos down]
      omega
    · rw [if_neg down]
      by_cases half : 2 * (n % unit) = unit
      · rw [if_pos half]
        have even : n / unit + n / unit % 2 ≤ n / unit + 1 := by omega
        exact Nat.le_trans (Nat.mul_le_mul_right unit even) next
      · rw [if_neg half]
        exact next

theorem whole_not_huge (run : Bytes) (below : value run < UInt64.size) : isHuge ⟨false, run, none, none⟩ = false := by
  have absorbed : absorb 0 run = (value run, []) := absorb_all 0 run below
  have one : roundDouble (Nat.pow 10 (Int.toNat 0)) = 1 := by decide
  have inner := round_bound (value run)
  have outer := round_bound (roundDouble (value run))
  have bound : roundDouble (roundDouble (value run)) < 4 * UInt64.size := by omega
  have small (k : Nat) (large : 66 ≤ k) :
      ¬ Nat.pow 2 k ≤ roundDouble (roundDouble (value run) * roundDouble (Nat.pow 10 (Int.toNat 0))) := by
    have power : 4 * UInt64.size ≤ Nat.pow 2 k := Nat.pow_le_pow_right (i := 66) Nat.two_pos large
    rw [one, Nat.mul_one]
    exact Nat.not_le.mpr (Nat.lt_of_lt_of_le bound power)
  simp only [isHuge, scaled, absorbed, Option.getD_none, absorb, List.length_nil, Nat.sub_self, Int.sub_self, Nat.cast_zero]
  by_cases nothing : value run = 0
  · rw [if_pos (.inr nothing)]
  · have going : ¬ ((0 : Int) < 0 ∨ value run = 0) := not_or.mpr ⟨Int.lt_irrefl 0, nothing⟩
    rw [if_neg going, if_neg (by decide)]
    generalize exponent : 1024 = k
    exact decide_eq_false (small k (by omega))

theorem decimal_octets (n : Nat) : ascii (Numeral.decimal n) = (Nat.toDigits 10 n).map octet := by
  rw [ascii, Numeral.decimal, Numeral.render, String.toList_ofList]
  rfl

theorem decimal_digits (n : Nat) : ∀ b ∈ (Nat.toDigits 10 n).map octet, isDigit b = true := by
  intro b member
  obtain ⟨c, listed, rfl⟩ := List.mem_map.mp member
  have digit := Nat.isDigit_of_mem_toDigits (by decide) (by decide) listed
  have letter : c.isAlphanum = true := by rw [Char.isAlphanum, digit, Bool.or_true]
  have digits : c.isDigit = true → isDigit (octet c) = true :=
    char_below (P := fun c => c.isDigit = true → isDigit (octet c) = true) (by decide) c (letter_bound c letter)
  exact digits digit

theorem value_decimal (n : Nat) : value ((Nat.toDigits 10 n).map octet) = n := by
  have digit : ∀ d < 10, digitValue (octet (Nat.digitChar d)) = d := by decide
  induction n using Nat.strongRecOn with
  | ind n ih =>
    rw [Nat.toDigits_eq_if (by decide)]
    by_cases single : n < 10
    · rw [if_pos single, List.map_singleton, value, List.foldl_cons, List.foldl_nil, digit n single]
      omega
    · have front := ih (n / 10) (by omega)
      rw [value] at front
      rw [if_neg single, List.map_append, List.map_singleton, value, List.foldl_append, front, List.foldl_cons,
        List.foldl_nil, digit _ (by omega)]
      omega

theorem decimal_lead (n : Nat) (positive : n ≠ 0) (rest : Bytes) : (Nat.toDigits 10 n).map octet ≠ zero :: rest := by
  have digit : ∀ d < 10, octet (Nat.digitChar d) = zero → d = 0 := by decide
  induction n using Nat.strongRecOn generalizing rest with
  | ind n ih =>
    rw [Nat.toDigits_eq_if (by decide)]
    by_cases single : n < 10
    · rw [if_pos single]
      intro same
      exact positive (digit n single (List.cons.inj same).1)
    · rw [if_neg single, List.map_append]
      intro same
      cases front : (Nat.toDigits 10 (n / 10)).map octet with
      | nil => exact Nat.toDigits_ne_nil (List.map_eq_nil_iff.mp front)
      | cons b others =>
        rw [front, List.cons_append] at same
        exact ih (n / 10) (by omega) (by omega) others ((List.cons.inj same).1 ▸ front)

theorem decimal_whole (n : Nat) : Whole ((Nat.toDigits 10 n).map octet) := by
  refine ⟨fun empty => Nat.toDigits_ne_nil (List.map_eq_nil_iff.mp empty), decimal_digits n, fun b others same => ?_⟩
  by_cases positive : n = 0
  · rw [positive] at same
    simp [Nat.toDigits_of_lt_base] at same
  · exact decimal_lead n positive (b :: others) same

theorem atom_digit (care : Care) (b : UInt8) (rest : Bytes) (digit : isDigit b = true) :
    atom care (b :: rest) = number care (b :: rest) := by
  have other (c : UInt8) (none : isDigit c = false) : b = c → False := by
    intro same
    rw [same, none] at digit
    exact Bool.false_ne_true digit
  rw [atom.eq_6 care b rest (other _ (by decide)) (other _ (by decide)) (other _ (by decide)) (other _ (by decide)), digit,
    Bool.or_true, if_pos rfl]

theorem atom_decimal (depth n : Nat) (rest : Bytes) (below : n < UInt64.size) (ends : Ends rest) :
    atom (.kept depth) (ascii (Numeral.decimal n) ++ rest) = .ok (.natural n, rest) := by
  have value := value_decimal n
  have read : number (.kept depth) ((Nat.toDigits 10 n).map octet ++ rest) = .ok (.natural n, rest) := by
    rw [number, literal_whole .endOfInput _ rest (decimal_whole n) ends]
    simp only [whole_not_huge _ (value.symm ▸ below), Literal.natural?, value, Bool.false_eq_true, if_false, Option.isSome_none,
      Bool.or_false]
  rw [decimal_octets]
  cases run : (Nat.toDigits 10 n).map octet with
  | nil => exact absurd (List.map_eq_nil_iff.mp run) Nat.toDigits_ne_nil
  | cons b others =>
    have digit := decimal_digits n b (run ▸ List.mem_cons_self)
    rw [run] at read
    rw [List.cons_append, atom_digit _ b _ digit]
    exact read

section Sequences

variable {α : Type}

inductive Separated (Item : α → Bytes → Prop) : List α → Bytes → Prop
  | last (x : α) (bytes : Bytes) (item : Item x bytes) : Separated Item [x] bytes
  | more (x : α) (others : List α) (bytes rest : Bytes) (item : Item x bytes) (separated : Separated Item others rest) :
      Separated Item (x :: others) (bytes ++ comma :: rest)

inductive Listed (Item : α → Bytes → Prop) : List α → Bytes → Prop
  | nothing (blanks : Bytes) (blank : Blanks blanks) : Listed Item [] blanks
  | items (xs : List α) (bytes : Bytes) (separated : Separated Item xs bytes) : Listed Item xs bytes

theorem separated_length (Item : α → Bytes → Prop) (xs : List α) (bytes : Bytes) (separated : Separated Item xs bytes)
    (filled : ∀ x bytes, Item x bytes → 0 < bytes.length) : xs.length ≤ bytes.length := by
  induction separated with
  | last x bytes item => exact filled x bytes item
  | more x others bytes rest item _ ih =>
    rw [List.length_cons, List.length_append, List.length_cons]
    omega

end Sequences

inductive Member (name : String) (Value : Bytes → Prop) : Bytes → Prop
  | intro (before spelled between after value behind : Bytes) (blankBefore : Blanks before)
      (named : Spelled name.toList spelled) (blankBetween : Blanks between) (blankAfter : Blanks after) (given : Value value)
      (blankBehind : Blanks behind) :
      Member name Value (before ++ quote :: spelled ++ quote :: between ++ colon :: after ++ value ++ behind)

def Opening : (first : Bool) → Bytes → Prop
  | true, bytes => bytes = []
  | false, bytes => ∃ blanks, Blanks blanks ∧ bytes = blanks ++ [comma]

theorem map_ok_iff {α β : Type} (f : α → β) (read : Except Fault α) (y : β) : read.map f = .ok y ↔ ∃ x, read = .ok x ∧ f x = y := by
  cases read <;> simp [Except.map]

theorem separator_ok_iff (input rest : Bytes) : separator input = .ok rest ↔ skipBlank input = colon :: rest := by
  rw [separator]
  split <;> simp_all

def Reaches : (first : Bool) → (input start : Bytes) → Prop
  | true, input, start => skipBlank input = start
  | false, input, start => ∃ tail, skipBlank input = comma :: tail ∧ skipBlank tail = start

theorem element_end_iff (first : Bool) (input rest : Bytes) :
    element? first input = .ok (false, rest) ↔ skipBlank input = rest ∧ ∃ tail, rest = closeBracket :: tail := by
  constructor
  · fun_cases element? first input with
    | case2 tail start =>
      intro done
      obtain ⟨-, rfl⟩ := Prod.mk.inj (Except.ok.inj done)
      exact ⟨start, tail, rfl⟩
    | _ => simp
  · rintro ⟨start, tail, rfl⟩
    rw [element?, start]
    rfl

theorem element_next_iff (first : Bool) (input rest : Bytes) :
    element? first input = .ok (true, rest) ↔
      Reaches first input rest ∧ rest ≠ [] ∧ ∀ tail, rest ≠ closeBracket :: tail := by
  constructor
  · fun_cases element? first input with
    | case3 b tail other start isFirst =>
      intro done
      obtain ⟨-, rfl⟩ := Prod.mk.inj (Except.ok.inj done)
      exact ⟨isFirst ▸ start, List.cons_ne_nil b tail, fun _ same => other (List.cons.inj same).1⟩
    | case6 behind later _ separated present other =>
      intro done
      obtain ⟨-, rfl⟩ := Prod.mk.inj (Except.ok.inj done)
      rw [Bool.eq_false_iff.mpr later]
      exact ⟨⟨behind, separated, rfl⟩, present, other⟩
    | _ => simp
  · rintro ⟨reached, present, other⟩
    cases first with
    | true =>
      rw [element?, show skipBlank input = rest from reached]
      split
      · contradiction
      · exact absurd rfl (other _)
      · rfl
    | false =>
      obtain ⟨tail, separated, start⟩ := reached
      rw [element?, separated]
      change (if (false : Bool) = true then _ else if comma = comma then _ else _) = _
      rw [if_neg Bool.false_ne_true, if_pos rfl, start]
      split
      · contradiction
      · exact absurd rfl (other _)
      · rfl

theorem name_ok_iff (input rest : Bytes) (found : Option String) :
    memberName?.name input = .ok (found, rest) ↔
      ∃ tail name, input = quote :: tail ∧ text (.kept 0) tail = .ok (name, rest) ∧ found = some name := by
  constructor
  · fun_cases memberName?.name input with
    | case1 tail =>
      rw [map_ok_iff]
      rintro ⟨⟨name, left⟩, named, same⟩
      obtain ⟨rfl, rfl⟩ := Prod.mk.inj same
      exact ⟨tail, name, rfl, named, rfl⟩
    | _ => simp
  · rintro ⟨tail, name, rfl, named, rfl⟩
    exact (map_ok_iff _ (text (.kept 0) tail) _).mpr ⟨(name, rest), named, rfl⟩

theorem member_end_iff (first : Bool) (input rest : Bytes) :
    memberName? first input = .ok (none, rest) ↔ skipBlank input = closeBrace :: rest := by
  constructor
  · fun_cases memberName? first input with
    | case2 tail start =>
      intro done
      obtain ⟨-, rfl⟩ := Prod.mk.inj (Except.ok.inj done)
      exact start
    | _ => simp [name_ok_iff]
  · intro start
    rw [memberName?, start]
    rfl

theorem member_next_iff (first : Bool) (input rest : Bytes) (name : String) :
    memberName? first input = .ok (some name, rest) ↔
      ∃ tail, Reaches first input (quote :: tail) ∧ text (.kept 0) tail = .ok (name, rest) := by
  constructor
  · fun_cases memberName? first input with
    | case3 b behind _ start isFirst =>
      rw [name_ok_iff]
      rintro ⟨tail, _, same, named, ⟨⟩⟩
      exact ⟨tail, isFirst ▸ start.trans same, named⟩
    | case5 behind later _ separated _ =>
      rw [name_ok_iff, Bool.eq_false_iff.mpr later]
      rintro ⟨tail, _, start, named, ⟨⟩⟩
      exact ⟨tail, ⟨behind, separated, start⟩, named⟩
    | _ => simp
  · rintro ⟨tail, reached, named⟩
    have name : memberName?.name (quote :: tail) = .ok (some name, rest) :=
      (name_ok_iff _ rest _).mpr ⟨tail, name, rfl, named, rfl⟩
    cases first with
    | true =>
      rw [memberName?, show skipBlank input = quote :: tail from reached]
      exact name
    | false =>
      obtain ⟨behind, separated, start⟩ := reached
      rw [memberName?, separated]
      change (if (false : Bool) = true then _ else if comma = comma then _ else _) = _
      rw [if_neg Bool.false_ne_true, if_pos rfl, start]
      exact name

theorem skip_behind (blanks rest : Bytes) (b : UInt8) (blank : Blanks blanks) (other : isBlank b = false) :
    skipBlank (blanks ++ b :: rest) = b :: rest := by
  rw [skip_blanks blanks _ blank, skip_none b rest other]

theorem opening_reaches (first : Bool) (opening before rest : Bytes) (b : UInt8) (opened : Opening first opening)
    (blank : Blanks before) (other : isBlank b = false) : Reaches first (opening ++ (before ++ b :: rest)) (b :: rest) := by
  have start := skip_behind before rest b blank other
  cases first with
  | true =>
    obtain rfl : opening = [] := opened
    exact start
  | false =>
    obtain ⟨blanks, blank, rfl⟩ := opened
    rw [List.append_assoc, List.singleton_append]
    exact ⟨_, skip_behind blanks _ comma blank (by decide), start⟩

theorem member_name_next (first : Bool) (opening before spelled rest : Bytes) (name : String) (opened : Opening first opening)
    (blank : Blanks before) (named : Spelled name.toList spelled) :
    memberName? first (opening ++ (before ++ quote :: (spelled ++ quote :: rest))) = .ok (some name, rest) := by
  have read := text_spelled 0 name.toList spelled rest named
  rw [String.ofList_toList] at read
  exact (member_next_iff first _ rest name).mpr ⟨_, opening_reaches first opening before _ quote opened blank (by decide), read⟩

theorem member_name_end (first : Bool) (blanks rest : Bytes) (blank : Blanks blanks) :
    memberName? first (blanks ++ closeBrace :: rest) = .ok (none, rest) :=
  (member_end_iff first _ rest).mpr (skip_behind blanks rest closeBrace blank (by decide))

theorem separator_colon (blanks rest : Bytes) (blank : Blanks blanks) : separator (blanks ++ colon :: rest) = .ok rest :=
  (separator_ok_iff _ rest).mpr (skip_behind blanks rest colon blank (by decide))

theorem element_next (first : Bool) (opening before rest : Bytes) (opened : Opening first opening) (blank : Blanks before) :
    element? first (opening ++ (before ++ openBrace :: rest)) = .ok (true, openBrace :: rest) := by
  have reached := opening_reaches first opening before rest openBrace opened blank (by decide)
  refine (element_next_iff first _ _).mpr ⟨reached, List.cons_ne_nil _ _, fun tail same => ?_⟩
  exact absurd (List.cons.inj same).1 (by decide)

theorem element_end (first : Bool) (blanks rest : Bytes) (blank : Blanks blanks) :
    element? first (blanks ++ closeBracket :: rest) = .ok (false, closeBracket :: rest) :=
  (element_end_iff first _ _).mpr ⟨skip_behind blanks rest closeBracket blank (by decide), rest, rfl⟩

end FunctionDiscovery.Json
