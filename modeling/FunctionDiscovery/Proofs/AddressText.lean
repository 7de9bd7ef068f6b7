import FunctionDiscovery.Proofs.NumeralText
import Mathlib.Data.List.Forall2
import Mathlib.Data.List.Induction
import Mathlib.Data.Nat.Digits.Defs

set_option autoImplicit false

namespace FunctionDiscovery

namespace Text

def Trimmed (text inner : List Char) : Prop :=
  ∃ before after, text = before ++ inner ++ after ∧
    (∀ c ∈ before, isBlank c = true) ∧ (∀ c ∈ after, isBlank c = true) ∧
    (∀ c, inner.head? = some c → isBlank c = false) ∧ (∀ c, inner.getLast? = some c → isBlank c = false)

theorem drop_blank_head (text : List Char) (c : Char) (first : (text.dropWhile isBlank).head? = some c) :
    isBlank c = false := by
  have stopped := List.head?_dropWhile_not isBlank text
  rwa [first] at stopped

theorem take_blank (text : List Char) : ∀ c ∈ text.takeWhile isBlank, isBlank c = true :=
  List.all_eq_true.mp List.all_takeWhile

theorem trim_trimmed (text : List Char) : Trimmed text (trim text) := by
  have front : text.takeWhile isBlank ++ text.dropWhile isBlank = text := List.takeWhile_append_dropWhile
  generalize rest : text.dropWhile isBlank = kept at front
  have back : trim text ++ (kept.reverse.takeWhile isBlank).reverse = kept := by
    rw [trim, rest, ← List.reverse_append, List.takeWhile_append_dropWhile, List.reverse_reverse]
  refine ⟨text.takeWhile isBlank, (kept.reverse.takeWhile isBlank).reverse, ?_, take_blank text, ?_, ?_, ?_⟩
  · rw [List.append_assoc, back, front]
  · intro c member
    exact take_blank kept.reverse c (List.mem_reverse.mp member)
  · intro c first
    apply drop_blank_head text c
    rw [rest, ← back, List.head?_append, first, Option.some_or]
  · intro c last
    apply drop_blank_head kept.reverse c
    rwa [trim, rest, List.getLast?_reverse] at last

end Text

namespace Numeral

def Figure (base : Nat) (c : Char) (d : Nat) : Prop := d < base ∧ c.toLower = Nat.digitChar d

def Denotes (base : Nat) (text : List Char) (value : Nat) : Prop :=
  ∃ digits, List.Forall₂ (Figure base) text.reverse digits ∧ Nat.ofDigits base digits = value

def Written (base : Nat) (body : List Char) (value : Nat) : Prop :=
  ∃ sign digits, (sign = [] ∨ sign = ['+']) ∧ digits ≠ [] ∧ body = sign ++ digits ∧ Denotes base digits value

def unsigned : List Char → List Char
  | '+' :: digits => digits
  | digits => digits

def Refused (base limit : Nat) (body : List Char) : Fault → Prop
  | .empty => body = []
  | .invalidDigit => body = ['+'] ∨ ∃ front c rest value, unsigned body = front ++ c :: rest ∧
      Denotes base front value ∧ value < limit ∧ ∀ d, ¬ Figure base c d
  | .tooLarge => ∃ front c rest value next, unsigned body = front ++ c :: rest ∧
      Denotes base front value ∧ value < limit ∧ Denotes base (front ++ [c]) next ∧ limit ≤ next

theorem digit_base (base : Nat) (c : Char) (d : Nat) (small : base ≤ 16) :
    digit? base c = some d ↔ d < base ∧ digit? 16 c = some d := by
  simp only [digit?]
  split_ifs <;> grind

theorem digit_bound (c : Char) (d : Nat) (digit : digit? 16 c = some d) : c.toNat < 0x7b := by
  by_contra large
  have beyond (last : Char) (below : last.toNat < 0x7b) : ¬ c ≤ last := fun upTo =>
    large (Nat.lt_of_le_of_lt (UInt32.le_iff_toNat_le.mp upTo) below)
  have none : digit? 16 c = none := by
    simp [digit?, beyond '9' (by decide), beyond 'z' (by decide), beyond 'Z' (by decide)]
  cases none.symm.trans digit

theorem digit_letter (c : Char) (d : Nat) (digit : digit? 16 c = some d) :
    c.toLower = Nat.digitChar d ∧ c.isAlphanum = true := by
  have each := char_below
    (P := fun c => (digit? 16 c).all (fun d => c.toLower == Nat.digitChar d && c.isAlphanum) = true) (by decide) c
    (digit_bound c d digit)
  simpa [digit] using each

theorem digit_iff (base : Nat) (c : Char) (d : Nat) (small : base ≤ 16) : digit? base c = some d ↔ Figure base c d := by
  rw [digit_base base c d small, Figure]
  refine and_congr_right fun below => ⟨fun digit => (digit_letter c d digit).1, fun same => ?_⟩
  rw [← digit_lower, same]
  exact digit_of_char 16 d (Nat.le_refl _) (Nat.lt_of_lt_of_le below small)

theorem denotes_nil (base value : Nat) : Denotes base [] value ↔ 0 = value := by
  simp [Denotes]

theorem denotes_concat (base : Nat) (front : List Char) (c : Char) (next : Nat) :
    Denotes base (front ++ [c]) next ↔
      ∃ value d, Denotes base front value ∧ Figure base c d ∧ value * base + d = next := by
  rw [Denotes, List.reverse_concat]
  constructor
  · rintro ⟨digits, figures, rfl⟩
    obtain ⟨d, rest, figure, others, rfl⟩ := List.forall₂_cons_left_iff.mp figures
    refine ⟨Nat.ofDigits base rest, d, ⟨rest, others, rfl⟩, figure, ?_⟩
    rw [Nat.ofDigits_cons, Nat.mul_comm, Nat.add_comm]
  · rintro ⟨value, d, ⟨digits, figures, rfl⟩, figure, rfl⟩
    refine ⟨d :: digits, .cons figure figures, ?_⟩
    rw [Nat.ofDigits_cons, Nat.mul_comm, Nat.add_comm]

theorem denotes_figure (base : Nat) (text : List Char) (value : Nat) (denotes : Denotes base text value) (c : Char)
    (member : c ∈ text) : ∃ d, Figure base c d := by
  induction text using List.reverseRecOn generalizing value with
  | nil => cases member
  | append_singleton front last ih =>
    obtain ⟨low, d, before, figure, -⟩ := (denotes_concat base front last value).mp denotes
    cases List.mem_append.mp member with
    | inl earlier => exact ih low before earlier
    | inr same => exact ⟨d, List.mem_singleton.mp same ▸ figure⟩

theorem extend_single_ok (base limit value : Nat) (c : Char) (next : Nat) :
    extend base limit value [c] = .ok next ↔
      ∃ d, digit? base c = some d ∧ value * base + d < limit ∧ value * base + d = next := by
  rw [extend]
  cases digit? base c with
  | none => simp
  | some d => by_cases room : value * base + d < limit <;> simp [extend, room]

theorem extend_single_fault (base limit value : Nat) (c : Char) (fault : Fault) :
    extend base limit value [c] = .error fault ↔
      fault = .invalidDigit ∧ digit? base c = none ∨
        fault = .tooLarge ∧ ∃ d, digit? base c = some d ∧ limit ≤ value * base + d := by
  rw [extend]
  cases digit? base c with
  | none => simp [eq_comm]
  | some d =>
    by_cases room : value * base + d < limit
    · simp [extend, room]
    · simp [room, Nat.not_lt.mp room, eq_comm]

theorem extend_ok_iff (base limit : Nat) (text : List Char) (value : Nat) (small : base ≤ 16) (room : 0 < limit) :
    extend base limit 0 text = .ok value ↔ Denotes base text value ∧ value < limit := by
  induction text using List.reverseRecOn generalizing value with
  | nil =>
    rw [denotes_nil, extend, Except.ok.injEq]
    exact ⟨fun zero => ⟨zero, zero ▸ room⟩, And.left⟩
  | append_singleton front c ih =>
    rw [extend_append, denotes_concat]
    constructor
    · intro read
      cases before : extend base limit 0 front with
      | error fault =>
        rw [before] at read
        cases read
      | ok low =>
        rw [before] at read
        obtain ⟨d, digit, below, rfl⟩ := (extend_single_ok base limit low c value).mp read
        exact ⟨⟨low, d, ((ih low).mp before).1, (digit_iff base c d small).mp digit, rfl⟩, below⟩
    · rintro ⟨⟨low, d, denotes, figure, rfl⟩, below⟩
      -- The digits before are worth no more, since the base is not zero.
      have fewer : low ≤ low * base := Nat.le_mul_of_pos_right low (Nat.zero_lt_of_lt figure.1)
      rw [(ih low).mpr ⟨denotes, by omega⟩]
      exact (extend_single_ok base limit low c _).mpr ⟨d, (digit_iff base c d small).mpr figure, below, rfl⟩

theorem denotes_unique (base : Nat) (text : List Char) (one other : Nat) (small : base ≤ 16)
    (first : Denotes base text one) (second : Denotes base text other) : one = other := by
  have limit : 0 < max one other + 1 := Nat.succ_pos _
  have readOne := (extend_ok_iff base _ text one small limit).mpr ⟨first, by omega⟩
  have readOther := (extend_ok_iff base _ text other small limit).mpr ⟨second, by omega⟩
  exact Except.ok.inj (readOne.symm.trans readOther)

theorem extend_fault_iff (base limit value : Nat) (text : List Char) (fault : Fault) :
    extend base limit value text = .error fault ↔
      ∃ front c rest low, text = front ++ c :: rest ∧ extend base limit value front = .ok low ∧
        extend base limit low [c] = .error fault := by
  constructor
  · intro failed
    induction text generalizing value with
    | nil => cases failed
    | cons c rest ih =>
      have split := extend_append base limit value [c] rest
      rw [List.singleton_append, failed] at split
      cases first : extend base limit value [c] with
      | error found =>
        rw [first] at split
        obtain rfl : fault = found := Except.error.inj split
        exact ⟨[], c, rest, value, rfl, rfl, first⟩
      | ok next =>
        rw [first] at split
        obtain ⟨front, d, behind, low, rfl, read, refused⟩ := ih next split.symm
        refine ⟨c :: front, d, behind, low, rfl, ?_, refused⟩
        rw [← List.singleton_append, extend_append, first]
        exact read
  · rintro ⟨front, c, rest, low, rfl, read, refused⟩
    rw [extend_append, read, ← List.singleton_append]
    change extend base limit low ([c] ++ rest) = _
    rw [extend_append, refused]
    rfl

theorem parse_unsigned (base limit : Nat) (body : List Char) (present : body ≠ []) (unlike : body ≠ ['+']) :
    parse base limit body = extend base limit 0 (unsigned body) := by
  rw [parse.eq_def, unsigned.eq_def]
  split
  · exact absurd rfl present
  · exact absurd rfl unlike
  · rfl
  · split
    · simp_all
    · rfl

theorem unsigned_cases (body : List Char) : ∃ sign, (sign = [] ∨ sign = ['+']) ∧ body = sign ++ unsigned body := by
  rw [unsigned.eq_def]
  split
  · exact ⟨['+'], .inr rfl, rfl⟩
  · exact ⟨[], .inl rfl, rfl⟩

theorem parse_ok_iff (base limit : Nat) (body : List Char) (value : Nat) (small : base ≤ 16) (room : 0 < limit) :
    parse base limit body = .ok value ↔ Written base body value ∧ value < limit := by
  constructor
  · intro read
    have present : body ≠ [] := by
      rintro rfl
      cases read
    have unlike : body ≠ ['+'] := by
      rintro rfl
      cases read
    rw [parse_unsigned base limit body present unlike] at read
    obtain ⟨denotes, below⟩ := (extend_ok_iff base limit _ value small room).mp read
    obtain ⟨sign, either, whole⟩ := unsigned_cases body
    refine ⟨⟨sign, unsigned body, either, fun nothing => ?_, whole, denotes⟩, below⟩
    rw [nothing, List.append_nil] at whole
    exact either.elim (present ∘ whole.trans) (unlike ∘ whole.trans)
  · rintro ⟨⟨sign, digits, either, present, rfl, denotes⟩, below⟩
    have read := (extend_ok_iff base limit digits value small room).mpr ⟨denotes, below⟩
    cases either with
    | inl none =>
      rw [none, List.nil_append]
      exact parse_digits base limit value digits present read
    | inr plus =>
      rw [plus, parse_unsigned base limit _ (by simp) (by simpa using present)]
      exact read

theorem parse_fault_iff (base limit : Nat) (body : List Char) (fault : Fault) (small : base ≤ 16) (room : 0 < limit) :
    parse base limit body = .error fault ↔ Refused base limit body fault := by
  by_cases absent : body = []
  · subst absent
    cases fault <;> simp [parse, Refused, unsigned]
  by_cases lone : body = ['+']
  · subst lone
    cases fault <;> simp [parse, Refused, unsigned]
  rw [parse_unsigned base limit body absent lone, extend_fault_iff]
  simp only [extend_ok_iff base limit _ _ small room, extend_single_fault]
  cases fault with
  | empty => simp [Refused, absent]
  | invalidDigit =>
    simp only [Refused, lone, false_or, true_and, false_and, or_false, reduceCtorEq, and_assoc,
      Option.eq_none_iff_forall_ne_some, ne_eq, digit_iff base _ _ small]
  | tooLarge =>
    simp only [Refused, false_and, false_or, true_and, reduceCtorEq, and_assoc]
    constructor
    · rintro ⟨front, c, rest, low, split, denotes, below, d, digit, beyond⟩
      have figure := (digit_iff base c d small).mp digit
      exact ⟨front, c, rest, low, _, split, denotes, below, (denotes_concat base front c _).mpr ⟨low, d, denotes, figure, rfl⟩,
        beyond⟩
    · rintro ⟨front, c, rest, low, next, split, denotes, below, extended, beyond⟩
      obtain ⟨same, d, again, figure, rfl⟩ := (denotes_concat base front c next).mp extended
      obtain rfl := denotes_unique base front low same small denotes again
      exact ⟨front, c, rest, low, split, denotes, below, d, (digit_iff base c d small).mpr figure, beyond⟩

theorem denotes_digits (base n : Nat) (binary : 1 < base) (small : base ≤ 16) : Denotes base (Nat.toDigits base n) n := by
  have read := extend_digits base (n + 1) n binary small (Nat.lt_succ_self n)
  exact ((extend_ok_iff base (n + 1) _ n small (Nat.succ_pos n)).mp read).1

theorem denotes_letters (base : Nat) (text : List Char) (value : Nat) (small : base ≤ 16)
    (denotes : Denotes base text value) : ∀ c ∈ text, c.isAlphanum = true := by
  intro c member
  obtain ⟨d, figure⟩ := denotes_figure base text value denotes c member
  have digit := ((digit_base base c d small).mp ((digit_iff base c d small).mpr figure)).2
  exact (digit_letter c d digit).2

theorem written_digits (base n : Nat) (binary : 1 < base) (small : base ≤ 16) : Written base (Nat.toDigits base n) n :=
  ⟨[], _, .inl rfl, Nat.toDigits_ne_nil, rfl, denotes_digits base n binary small⟩

end Numeral

namespace Address

def Written (text : List Char) (value : Nat) : Prop :=
  (∃ x body, (x = 'x' ∨ x = 'X') ∧ text = '0' :: x :: body ∧ Numeral.Written 16 body value) ∨ Numeral.Written 10 text value

inductive Opening : List Char → Nat → List Char → Prop where
  | hex (x : Char) (body : List Char) (mark : x = 'x' ∨ x = 'X') : Opening ('0' :: x :: body) 16 body
  | decimal (body : List Char) (unmarked : ∀ x rest, body = '0' :: x :: rest → ¬ (x = 'x' ∨ x = 'X')) : Opening body 10 body

def Refused (text : List Char) (cause : Numeral.Fault) : Prop :=
  ∃ base body, Opening text base body ∧ Numeral.Refused base UInt64.size body cause

theorem numeral_opening (text : List Char) :
    ∃ base body, base ≤ 16 ∧ Opening text base body ∧ numeral text = Numeral.parse base UInt64.size body := by
  rw [numeral.eq_def]
  split
  · exact ⟨16, _, Nat.le_refl _, .hex 'x' _ (.inl rfl), rfl⟩
  · exact ⟨16, _, Nat.le_refl _, .hex 'X' _ (.inr rfl), rfl⟩
  · next lower upper =>
    refine ⟨10, text, by decide, .decimal text fun x rest same mark => ?_, rfl⟩
    cases mark with
    | inl small => exact lower rest (small ▸ same)
    | inr capital => exact upper rest (capital ▸ same)

theorem opening_unique (text : List Char) (base other : Nat) (body rest : List Char) (first : Opening text base body)
    (second : Opening text other rest) : base = other ∧ body = rest := by
  cases first with
  | hex x body mark =>
    cases second with
    | hex => exact ⟨rfl, rfl⟩
    | decimal _ unmarked => exact absurd mark (unmarked x body rfl)
  | decimal _ unmarked =>
    cases second with
    | hex x rest mark => exact absurd mark (unmarked x rest rfl)
    | decimal => exact ⟨rfl, rfl⟩

-- The mark is no decimal digit, so that a marked text is not also a decimal numeral.
theorem mark_not_decimal (x : Char) (body : List Char) (value : Nat) (mark : x = 'x' ∨ x = 'X') :
    ¬ Numeral.Written 10 ('0' :: x :: body) value := by
  rintro ⟨sign, digits, either, -, same, denotes⟩
  have unmarked : ∀ d, ¬ Numeral.Figure 10 x d := by
    intro d figure
    have digit := (Numeral.digit_iff 10 x d (by decide)).mpr figure
    rcases mark with rfl | rfl <;> exact absurd digit (by simp [Numeral.digit?])
  cases either with
  | inl none =>
    rw [none, List.nil_append] at same
    obtain ⟨d, figure⟩ := Numeral.denotes_figure 10 digits value denotes x (same ▸ by simp)
    exact unmarked d figure
  | inr plus => simp [plus] at same

theorem written_opening (text : List Char) (base : Nat) (body : List Char) (value : Nat) (opening : Opening text base body) :
    Written text value ↔ Numeral.Written base body value := by
  cases opening with
  | hex x body mark =>
    constructor
    · rintro (⟨y, rest, -, same, written⟩ | decimal)
      · obtain ⟨-, -, rfl⟩ : '0' = '0' ∧ x = y ∧ body = rest := by simpa using same
        exact written
      · exact absurd decimal (mark_not_decimal x body value mark)
    · exact fun written => .inl ⟨x, body, mark, rfl, written⟩
  | decimal _ unmarked =>
    refine ⟨?_, .inr⟩
    rintro (⟨x, rest, mark, same, -⟩ | decimal)
    · exact absurd mark (unmarked x rest same)
    · exact decimal

theorem numeral_ok_iff (text : List Char) (value : Nat) :
    numeral text = .ok value ↔ Written text value ∧ value < UInt64.size := by
  obtain ⟨base, body, small, opening, same⟩ := numeral_opening text
  rw [same, Numeral.parse_ok_iff base UInt64.size body value small (by decide), written_opening text base body value opening]

theorem numeral_fault_iff (text : List Char) (cause : Numeral.Fault) : numeral text = .error cause ↔ Refused text cause := by
  obtain ⟨base, body, small, opening, same⟩ := numeral_opening text
  rw [same, Numeral.parse_fault_iff base UInt64.size body cause small (by decide)]
  constructor
  · exact fun refused => ⟨base, body, opening, refused⟩
  · rintro ⟨other, rest, alike, refused⟩
    obtain ⟨rfl, rfl⟩ := opening_unique text base other body rest opening alike
    exact refused

theorem parse_numeral (s : String) (a : Address) :
    parse s = .ok a ↔ numeral (Text.trim s.toList) = .ok a.toNat := by
  rw [parse]
  cases read : numeral (Text.trim s.toList) with
  | error cause => simp
  | ok value =>
    have below := ((numeral_ok_iff _ value).mp read).2
    simp only [Except.ok.injEq]
    constructor
    · rintro rfl
      exact (UInt64.toNat_ofNat_of_lt' below).symm
    · rintro rfl
      exact UInt64.ofNat_toNat

theorem parse_fault (s : String) (fault : Fault) :
    parse s = .error fault ↔
      fault.text = String.ofList (Text.trim s.toList) ∧ numeral (Text.trim s.toList) = .error fault.cause := by
  obtain ⟨text, cause⟩ := fault
  rw [parse]
  cases read : numeral (Text.trim s.toList) with
  | error found => simp [eq_comm]
  | ok value => simp

theorem parse_written (a : Address) (text : List Char) (letters : ∀ c ∈ text, c.isAlphanum = true)
    (written : Written text a.toNat) : parse (String.ofList text) = .ok a := by
  rw [parse_numeral, String.toList_ofList, trim_letters text letters, numeral_ok_iff]
  exact ⟨written, a.toNat_lt⟩

theorem decimal_read (a : Address) : parse a.decimal = .ok a := by
  have letters := Numeral.denotes_letters 10 _ _ (by decide) (Numeral.denotes_digits 10 a.toNat (by decide) (by decide))
  exact parse_written a _ letters (.inr (Numeral.written_digits 10 a.toNat (by decide) (by decide)))

theorem hex_read (a : Address) : parse a.hex = .ok a := by
  have spelled : a.hex = String.ofList ('0' :: 'x' :: Nat.toDigits 16 a.toNat) := by
    rw [hex, Numeral.hex, Numeral.render]
    apply String.toList_injective
    simp
  have letters := Numeral.denotes_letters 16 _ _ (by decide) (Numeral.denotes_digits 16 a.toNat (by decide) (by decide))
  rw [spelled]
  refine parse_written a _ (by simpa using letters) (.inl ⟨'x', _, .inl rfl, rfl, ?_⟩)
  exact Numeral.written_digits 16 a.toNat (by decide) (by decide)

theorem read_exactly (s : String) :
    (∃ text, Text.Trimmed s.toList text ∧
      (∀ a, parse s = .ok a ↔ Written text a.toNat) ∧
      (∀ fault, parse s = .error fault ↔ fault.text = String.ofList text ∧ Refused text fault.cause)) ∧
    (∀ a : Address, parse a.hex = .ok a ∧ parse a.decimal = .ok a) := by
  refine ⟨⟨Text.trim s.toList, Text.trim_trimmed s.toList, fun a => ?_, fun fault => ?_⟩, fun a => ⟨hex_read a, decimal_read a⟩⟩
  · rw [parse_numeral, numeral_ok_iff]
    exact and_iff_left a.toNat_lt
  · rw [parse_fault, numeral_fault_iff]

-- The first digit that fails decides, whatever is wrong with those after it.
example : parse " 18446744073709551616z" = .error ⟨"18446744073709551616z", .tooLarge⟩ := by decide +kernel

example : parse "18446744073709551615z\n" = .error ⟨"18446744073709551615z", .invalidDigit⟩ := by decide +kernel

end Address

end FunctionDiscovery
