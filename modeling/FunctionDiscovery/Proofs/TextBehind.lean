import FunctionDiscovery.Proofs.JsonGrammar

set_option autoImplicit false

namespace FunctionDiscovery.Json

section Readers

variable {α β : Type}

def Closed (read : Bytes → Except Fault (α × Bytes)) : Prop :=
  ∀ input x rest more, read input = .ok (x, rest) → read (input ++ more) = .ok (x, rest ++ more)

-- What is read is known to have ended if something follows it.
def Settled (read : Bytes → Except Fault (α × Bytes)) : Prop :=
  ∀ input x rest more, rest ≠ [] → read input = .ok (x, rest) → read (input ++ more) = .ok (x, rest ++ more)

theorem closed_settled (read : Bytes → Except Fault (α × Bytes)) (closed : Closed read) : Settled read :=
  fun input x rest more _ => closed input x rest more

theorem bind_ok_iff (next : α → Except Fault β) (read : Except Fault α) (y : β) :
    read >>= next = .ok y ↔ ∃ x, read = .ok x ∧ next x = .ok y := by
  cases read <;> simp [bind, Except.bind]

theorem map_more (f : α → β) (read longer : Except Fault (α × Bytes)) (y : β) (rest more : Bytes)
    (stays : ∀ x, read = .ok (x, rest) → longer = .ok (x, rest ++ more))
    (done : (read.map fun found => (f found.1, found.2)) = .ok (y, rest)) :
    (longer.map fun found => (f found.1, found.2)) = .ok (y, rest ++ more) := by
  obtain ⟨⟨x, left⟩, found, same⟩ := (map_ok_iff _ read _).mp done
  obtain ⟨rfl, rfl⟩ := Prod.mk.inj same
  rw [stays x found]
  rfl

theorem rest_map_more (y z : α) (read longer : Except Fault Bytes) (rest more : Bytes)
    (stays : read = .ok rest → longer = .ok (rest ++ more)) (done : (read.map fun left => (y, left)) = .ok (z, rest)) :
    (longer.map fun left => (y, left)) = .ok (z, rest ++ more) := by
  obtain ⟨left, found, same⟩ := (map_ok_iff _ read _).mp done
  obtain ⟨rfl, rfl⟩ := Prod.mk.inj same
  rw [stays found]
  rfl

theorem bind_more (next : α × Bytes → Except Fault (β × Bytes)) (read longer : Except Fault (α × Bytes)) (y : β)
    (rest more : Bytes) (stays : ∀ x middle, read = .ok (x, middle) → next (x, middle) = .ok (y, rest) →
      longer = .ok (x, middle ++ more) ∧ next (x, middle ++ more) = .ok (y, rest ++ more))
    (done : read >>= next = .ok (y, rest)) : longer >>= next = .ok (y, rest ++ more) := by
  obtain ⟨⟨x, middle⟩, found, finished⟩ := (bind_ok_iff next read _).mp done
  exact (bind_ok_iff next longer _).mpr ⟨(x, middle ++ more), stays x middle found finished⟩

-- The second reader needs some text, so that something follows what the first one read.
theorem settled_bind (read : Bytes → Except Fault (α × Bytes)) (next : α × Bytes → Except Fault (β × Bytes)) (input : Bytes)
    (y : β) (rest more : Bytes) (settled : Settled read) (needs : ∀ x, next (x, []) ≠ .ok (y, rest))
    (stays : ∀ x middle, next (x, middle) = .ok (y, rest) → next (x, middle ++ more) = .ok (y, rest ++ more))
    (done : read input >>= next = .ok (y, rest)) : read (input ++ more) >>= next = .ok (y, rest ++ more) := by
  refine bind_more next _ _ y rest more (fun x middle found finished => ?_) done
  have between : middle ≠ [] := fun empty => needs x (empty ▸ finished)
  exact ⟨settled input x middle more between found, stays x middle finished⟩

end Readers

theorem skip_more (input more : Bytes) (present : skipBlank input ≠ []) :
    skipBlank (input ++ more) = skipBlank input ++ more := by
  rw [skipBlank, List.dropWhile_append, ← skipBlank, if_neg]
  simpa using present

theorem expect_more (word input rest more : Bytes) (done : expect word input = .ok rest) :
    expect word (input ++ more) = .ok (rest ++ more) := by
  fun_induction expect word input with
  | case1 input =>
    obtain rfl := Except.ok.inj done
    rfl
  | case2 => contradiction
  | case3 word b input ih =>
    rw [List.cons_append, expect, if_pos rfl]
    exact ih done
  | case4 => contradiction

theorem prepend_more (piece bytes rest more : Bytes) (read longer : Except Fault (Bytes × Bytes))
    (stays : ∀ others left, read = .ok (others, left) → longer = .ok (others, left ++ more))
    (done : prepend piece read = .ok (bytes, rest)) : prepend piece longer = .ok (bytes, rest ++ more) :=
  map_more (piece ++ ·) read longer bytes rest more (fun others => stays others rest) done

theorem content_more (care : Care) : Closed (content care) := by
  intro input bytes rest more done
  fun_induction content care input generalizing bytes rest with
  | case2 left =>
    obtain ⟨rfl, rfl⟩ := Prod.mk.inj (Except.ok.inj done)
    rfl
  | case5 a b c d left unit code skipped ih =>
    refine (content.eq_4 care a b c d (left ++ more)).trans ?_
    simp only [code, if_pos skipped, ih bytes rest done]
  | case10 a b c d unit code kept high leading e f g h left low coded trailing ih =>
    refine (content.eq_4 care a b c d _).trans ?_
    simp only [List.append_eq, List.cons_append, code, if_neg kept, if_neg high, if_pos leading, coded, if_pos trailing]
    exact prepend_more _ bytes rest more _ _ ih done
  | case14 a b c d left unit code kept high leading ih =>
    refine (content.eq_4 care a b c d (left ++ more)).trans ?_
    simp only [code, if_neg kept, if_neg high, if_neg leading]
    exact prepend_more _ bytes rest more _ _ ih done
  | case17 b left _ plain c escaped ih =>
    refine (content.eq_6 care b (left ++ more) (fun _ _ _ _ _ unicode => absurd unicode plain) plain).trans ?_
    simp only [escaped]
    exact prepend_more _ bytes rest more _ _ ih done
  | case19 b left notQuote alone _ _ escaped printed ih =>
    have notBackslash : b ≠ backslash := by
      intro same
      cases left with
      | nil => exact alone same rfl
      | cons first others => exact escaped first others same rfl
    refine (content.eq_7 care b (left ++ more) notQuote (fun escape => absurd escape notBackslash)
      (fun _ _ _ _ _ escape => absurd escape notBackslash) (fun _ escape => absurd escape notBackslash)
      (fun _ _ escape => absurd escape notBackslash)).trans ?_
    rw [if_neg printed]
    exact prepend_more _ bytes rest more _ _ ih done
  | _ => contradiction

theorem text_more (care : Care) : Closed (text care) := by
  intro input found rest more done
  rw [text] at done ⊢
  cases inside : content care input with
  | error fault => simp [inside] at done
  | ok read =>
    obtain ⟨bytes, left⟩ := read
    rw [inside] at done
    rw [content_more care input bytes left more inside]
    cases care with
    | skipped =>
      obtain ⟨rfl, rfl⟩ := Prod.mk.inj (Except.ok.inj done)
      rfl
    | kept depth =>
      cases decoded : Utf8.decode? bytes with
      | none => simp [decoded] at done
      | some shown =>
        simp only [decoded] at done ⊢
        obtain ⟨rfl, rfl⟩ := Prod.mk.inj (Except.ok.inj done)
        rfl

theorem digits_ok_iff (cut : Fault) (input run rest : Bytes) :
    digits cut input = .ok (run, rest) ↔ input.takeWhile isDigit = run ∧ input.dropWhile isDigit = rest ∧ run ≠ [] := by
  rw [digits]
  cases taken : input.takeWhile isDigit with
  | nil =>
    refine iff_of_false (fun done => ?_) fun all => all.2.2 all.1.symm
    cases behind : input.dropWhile isDigit <;> rw [behind] at done <;> contradiction
  | cons b others =>
    constructor
    · intro done
      obtain ⟨rfl, rfl⟩ := Prod.mk.inj (Except.ok.inj done)
      exact ⟨rfl, rfl, List.cons_ne_nil b others⟩
    · rintro ⟨rfl, rfl, -⟩
      rfl

theorem digits_more (cut : Fault) : Settled (digits cut) := by
  intro input run rest more left done
  obtain ⟨rfl, rfl, present⟩ := (digits_ok_iff cut input run rest).mp done
  have shorter : (input.takeWhile isDigit).length ≠ input.length := by
    have whole := congrArg List.length (List.takeWhile_append_dropWhile (p := isDigit) (l := input))
    have behind := List.length_pos_iff.mpr left
    rw [List.length_append] at whole
    omega
  refine (digits_ok_iff cut (input ++ more) _ _).mpr ⟨?_, ?_, present⟩
  · rw [List.takeWhile_append, if_neg shorter]
  · rw [List.dropWhile_append, if_neg (by simpa using left)]

theorem run_more {β : Type} (cut : Fault) (f : Bytes → β) :
    Settled fun input => digits cut input >>= fun found => .ok (f found.1, found.2) := by
  intro input y rest more left done
  refine bind_more _ _ _ y rest more (fun run middle found finished => ?_) done
  obtain ⟨rfl, rfl⟩ := Prod.mk.inj (Except.ok.inj finished)
  exact ⟨digits_more cut input run middle more left found, rfl⟩

theorem whole_ok_iff (cut : Fault) (input run rest : Bytes) :
    wholeDigits cut input = .ok (run, rest) ↔
      digits cut input = .ok (run, rest) ∧ ∀ b others, run ≠ zero :: b :: others := by
  rw [wholeDigits, bind_ok_iff]
  constructor
  · rintro ⟨⟨taken, left⟩, found, finished⟩
    dsimp only at finished
    split at finished
    · contradiction
    · rename_i single
      obtain ⟨rfl, rfl⟩ := Prod.mk.inj (Except.ok.inj finished)
      exact ⟨found, single⟩
  · rintro ⟨found, single⟩
    refine ⟨(run, rest), found, ?_⟩
    dsimp only
    split
    · exact absurd rfl (single _ _)
    · rfl

theorem whole_more (cut : Fault) : Settled (wholeDigits cut) := by
  intro input run rest more left done
  obtain ⟨found, single⟩ := (whole_ok_iff cut input run rest).mp done
  exact (whole_ok_iff cut _ run _).mpr ⟨digits_more cut input run rest more left found, single⟩

theorem other_first (b : UInt8) (input more : Bytes) (present : input ≠ []) (other : ∀ tail, input = b :: tail → False) :
    ∀ tail, input ++ more = b :: tail → False := by
  intro tail same
  cases input with
  | nil => exact present rfl
  | cons first others => exact other others ((List.cons.inj same).1 ▸ rfl)

theorem fraction_more (cut : Fault) : Settled (fractionDigits cut) := by
  intro input x rest more left done
  fun_cases fractionDigits cut input with
  | case1 input => exact run_more cut some input x rest more left done
  | case2 _ other =>
    rw [fractionDigits.eq_2 cut input other] at done
    obtain ⟨rfl, rfl⟩ := Prod.mk.inj (Except.ok.inj done)
    exact fractionDigits.eq_2 cut (input ++ more) (other_first _ input more left other)

theorem signed_more (cut : Fault) : Settled (exponentDigits.signed cut) := by
  intro input x rest more left done
  by_cases negative : ∃ tail, input = minus :: tail
  · obtain ⟨tail, rfl⟩ := negative
    exact run_more cut (fun run => some (true, run)) tail x rest more left done
  · by_cases positive : ∃ tail, input = plus :: tail
    · obtain ⟨tail, rfl⟩ := positive
      exact run_more cut (fun run => some (false, run)) tail x rest more left done
    · have unsigned := exponentDigits.signed.eq_3 cut
      have present : input ≠ [] := by
        rintro rfl
        contradiction
      rw [unsigned input (not_exists.mp negative) (not_exists.mp positive)] at done
      rw [unsigned (input ++ more) (other_first _ input more present (not_exists.mp negative))
        (other_first _ input more present (not_exists.mp positive))]
      exact run_more cut (fun run => some (false, run)) input x rest more left done

theorem exponent_more (cut : Fault) : Settled (exponentDigits cut) := by
  intro input x rest more left done
  fun_cases exponentDigits cut input with
  | case1 input => exact signed_more cut input x rest more left done
  | case2 input => exact signed_more cut input x rest more left done
  | case3 _ small capital =>
    rw [exponentDigits.eq_3 cut input small capital] at done
    obtain ⟨rfl, rfl⟩ := Prod.mk.inj (Except.ok.inj done)
    exact exponentDigits.eq_3 cut (input ++ more) (other_first _ input more left small)
      (other_first _ input more left capital)

def magnitude (cut : Fault) (negative : Bool) (input : Bytes) : Except Fault (Literal × Bytes) := do
  let (whole, input) ← wholeDigits cut input
  let (fraction, input) ← fractionDigits cut input
  let (exponent, rest) ← exponentDigits cut input
  .ok (⟨negative, whole, fraction, exponent⟩, rest)

-- A part that leaves no text is followed by none, and then the whole leaves none.
theorem magnitude_more (cut : Fault) (negative : Bool) : Settled (magnitude cut negative) := by
  intro input l rest more left
  refine settled_bind _ _ input l rest more (whole_more cut) ?_ fun whole middle => ?_
  · exact fun whole ended => left (Prod.mk.inj (Except.ok.inj ended)).2.symm
  refine settled_bind _ _ middle l rest more (fraction_more cut) ?_ fun fraction behind => ?_
  · exact fun fraction ended => left (Prod.mk.inj (Except.ok.inj ended)).2.symm
  refine bind_more _ _ _ l rest more fun exponent last found complete => ?_
  obtain ⟨rfl, rfl⟩ := Prod.mk.inj (Except.ok.inj complete)
  exact ⟨exponent_more cut behind exponent last more left found, rfl⟩

theorem literal_more (cut : Fault) : Settled (literal cut) := by
  intro input l rest more left done
  by_cases negative : ∃ tail, input = minus :: tail
  · obtain ⟨tail, rfl⟩ := negative
    exact magnitude_more cut true tail l rest more left done
  · have unsigned := literal.eq_2 cut
    have present : input ≠ [] := by
      rintro rfl
      contradiction
    rw [unsigned input (not_exists.mp negative)] at done
    rw [unsigned (input ++ more) (other_first _ input more present (not_exists.mp negative))]
    exact magnitude_more cut false input l rest more left done

theorem number_more (care : Care) : Settled (number care) := by
  intro input x rest more left done
  cases care with
  | skipped => exact map_more (fun _ => Atom.real) _ _ x rest more (fun l => literal_more .malformed input l rest more left) done
  | kept depth =>
    rw [number] at done ⊢
    cases found : literal .endOfInput input with
    | error fault => simp [found] at done
    | ok parts =>
      obtain ⟨l, behind⟩ := parts
      by_cases huge : isHuge l = true
      · simp [found, huge] at done
      · cases natural : l.natural? with
        | none =>
          simp only [found, if_neg huge, natural] at done
          obtain ⟨rfl, rfl⟩ := Prod.mk.inj (Except.ok.inj done)
          simp only [literal_more .endOfInput input l behind more left found, if_neg huge, natural]
        | some n =>
          simp only [found, if_neg huge, natural] at done
          obtain ⟨rfl, rfl⟩ := Prod.mk.inj (Except.ok.inj done)
          simp only [literal_more .endOfInput input l behind more left found, if_neg huge, natural]

theorem atom_more (care : Care) : Settled (atom care) := by
  intro input x rest more left done
  fun_cases atom care input with
  | case1 => contradiction
  | case2 tail => exact rest_map_more Atom.null x _ _ rest more (expect_more _ tail rest more) done
  | case3 tail => exact rest_map_more (Atom.boolean true) x _ _ rest more (expect_more _ tail rest more) done
  | case4 tail => exact rest_map_more (Atom.boolean false) x _ _ rest more (expect_more _ tail rest more) done
  | case5 tail => exact map_more Atom.text _ _ x rest more (fun shown => text_more care tail shown rest more) done
  | case6 b tail null true false quoted numeric =>
    rw [atom.eq_6 care b tail null true false quoted, if_pos numeric] at done
    rw [List.cons_append, atom.eq_6 care b (tail ++ more) null true false quoted, if_pos numeric]
    exact number_more care (b :: tail) x rest more left done
  | case7 b tail null true false quoted other =>
    rw [atom.eq_6 care b tail null true false quoted, if_neg other] at done
    contradiction

theorem first_more (input more tail : Bytes) (b : UInt8) (start : skipBlank input = b :: tail) :
    skipBlank (input ++ more) = b :: (tail ++ more) := by
  rw [skip_more input more (by rw [start]; exact List.cons_ne_nil b tail), start, List.cons_append]

theorem separator_more (input rest more : Bytes) (done : separator input = .ok rest) :
    separator (input ++ more) = .ok (rest ++ more) := by
  rw [separator_ok_iff] at done ⊢
  exact first_more input more rest colon done

theorem array_end_ok_iff (input rest : Bytes) : arrayEnd input = .ok rest ↔ skipBlank input = closeBracket :: rest := by
  rw [arrayEnd]
  split <;> simp_all

theorem array_end_more (input rest more : Bytes) (done : arrayEnd input = .ok rest) :
    arrayEnd (input ++ more) = .ok (rest ++ more) := by
  rw [array_end_ok_iff] at done ⊢
  exact first_more input more rest closeBracket done

theorem label_ok_iff (care : Care) (input rest : Bytes) :
    label care .object input = .ok rest ↔ ∃ tail name behind, skipBlank input = quote :: tail ∧
      text care tail = .ok (name, behind) ∧ separator behind = .ok rest := by
  simp only [separator_ok_iff]
  rw [label]
  split
  · simp_all
  · rename_i tail start
    cases named : text care tail with
    | error fault => simp_all
    | ok found =>
      obtain ⟨name, behind⟩ := found
      dsimp only
      split <;> simp_all
  · simp_all

theorem label_more (care : Care) (frame : Frame) (input rest more : Bytes) (done : label care frame input = .ok rest) :
    label care frame (input ++ more) = .ok (rest ++ more) := by
  cases frame with
  | array =>
    obtain rfl := Except.ok.inj done
    rfl
  | object =>
    obtain ⟨tail, name, behind, start, named, colon⟩ := (label_ok_iff care input rest).mp done
    exact (label_ok_iff care _ _).mpr ⟨tail ++ more, name, behind ++ more, first_more input more tail quote start,
      text_more care tail name behind more named, separator_more behind rest more colon⟩

theorem boolean_ok_iff (input rest : Bytes) (x : Bool) :
    boolean input = .ok (x, rest) ↔
      (∃ tail, skipBlank input = letterT :: tail ∧ expect (ascii "rue") tail = .ok rest ∧ x = true) ∨
      ∃ tail, skipBlank input = letterF :: tail ∧ expect (ascii "alse") tail = .ok rest ∧ x = false := by
  rw [boolean]
  split
  · simp_all [map_ok_iff]
    grind
  · simp_all [map_ok_iff]
    grind
  · simp_all

theorem boolean_more : Closed boolean := by
  intro input x rest more done
  rw [boolean_ok_iff] at done ⊢
  refine done.imp ?_ ?_
  · rintro ⟨tail, start, word, rfl⟩
    exact ⟨tail ++ more, first_more input more tail letterT start, expect_more _ tail rest more word, rfl⟩
  · rintro ⟨tail, start, word, rfl⟩
    exact ⟨tail ++ more, first_more input more tail letterF start, expect_more _ tail rest more word, rfl⟩

theorem reaches_more (first : Bool) (input start more : Bytes) (present : start ≠ []) (reached : Reaches first input start) :
    Reaches first (input ++ more) (start ++ more) := by
  cases first with
  | true =>
    obtain rfl : skipBlank input = start := reached
    exact skip_more input more present
  | false =>
    obtain ⟨tail, separated, rfl⟩ := reached
    exact ⟨tail ++ more, first_more input more tail comma separated, skip_more tail more present⟩

theorem element_more (first : Bool) : Closed (element? first) := by
  intro input present rest more done
  cases present with
  | false =>
    obtain ⟨start, tail, rfl⟩ := (element_end_iff first input rest).mp done
    exact (element_end_iff first _ _).mpr ⟨first_more input more tail closeBracket start, tail ++ more, rfl⟩
  | true =>
    obtain ⟨reached, present, other⟩ := (element_next_iff first input rest).mp done
    refine (element_next_iff first _ _).mpr ⟨reaches_more first input rest more present reached, ?_, ?_⟩
    · exact List.append_ne_nil_of_left_ne_nil present more
    · exact other_first closeBracket rest more present other

theorem member_name_more (first : Bool) : Closed (memberName? first) := by
  intro input found rest more done
  cases found with
  | none =>
    rw [member_end_iff] at done ⊢
    exact first_more input more rest closeBrace done
  | some name =>
    obtain ⟨tail, reached, named⟩ := (member_next_iff first input rest name).mp done
    exact (member_next_iff first _ _ name).mpr ⟨tail ++ more,
      reaches_more first input (quote :: tail) more (List.cons_ne_nil _ _) reached,
      text_more (.kept 0) tail name rest more named⟩

theorem walk_nothing (care : Care) (fuel : Nat) (frames : List Frame) (rest : Bytes)
    (done : walk care fuel .after frames [] = .ok rest) : rest = [] := by
  cases fuel with
  | zero => contradiction
  | succ fuel =>
    cases frames with
    | nil => exact (Except.ok.inj done).symm
    | cons frame frames => contradiction

-- The steps are the same, each within what was left of the text before; only the last one may leave nothing more.
theorem walk_more (care : Care) (fuel extra : Nat) (place : Place) (frames : List Frame) (input rest more : Bytes)
    (left : rest ≠ []) (done : walk care fuel place frames input = .ok rest) :
    walk care (fuel + extra) place frames (input ++ more) = .ok (rest ++ more) := by
  fun_induction walk care fuel place frames input with
  | case2 fuel input =>
    obtain rfl := Except.ok.inj done
    rw [Nat.succ_add, walk]
  | case4 fuel frame frames input tail start ih =>
    rw [Nat.succ_add, walk, first_more input more tail _ start]
    simp only [if_true, ih done]
  | case6 fuel frame frames input tail next named start other ih =>
    rw [Nat.succ_add, walk, first_more input more tail _ start]
    simp only [if_neg other, if_true, label_more care frame tail next more named, ih done]
  | case8 fuel input =>
    obtain rfl := Except.ok.inj done
    rw [Nat.succ_add, walk]
  | case10 fuel frame frames input tail start ih =>
    rw [Nat.succ_add, walk, first_more input more tail _ start]
    simp only [if_true, ih done]
  | case12 fuel frame frames input b tail start other next named ih =>
    rw [Nat.succ_add, walk, first_more input more tail _ start]
    have longer := label_more care frame (b :: tail) next more named
    rw [List.cons_append] at longer
    simp only [if_neg other, longer, ih done]
  | case15 fuel frames input tail start shallow ih =>
    rw [Nat.succ_add, walk, first_more input more tail _ start]
    change (if isTooDeep care frames = true then _ else _) = _
    rw [if_neg shallow]
    exact ih done
  | case17 fuel frames input tail start shallow ih =>
    rw [Nat.succ_add, walk, first_more input more tail _ start]
    change (if isTooDeep care frames = true then _ else _) = _
    rw [if_neg shallow]
    exact ih done
  | case19 fuel frames input x next present bracket brace found ih =>
    have between : next ≠ [] := by
      rintro rfl
      exact left (walk_nothing care fuel frames rest done)
    have longer := atom_more care (skipBlank input) x next more between found
    rw [Nat.succ_add, walk, skip_more input more present]
    split
    · exact absurd ‹_› (List.append_ne_nil_of_left_ne_nil present more)
    · exact absurd ‹_› (other_first _ _ more present bracket _)
    · exact absurd ‹_› (other_first _ _ more present brace _)
    · simp only [longer, ih done]
  | _ => contradiction

theorem pass_more (care : Care) (input rest more : Bytes) (left : rest ≠ []) (done : pass care input = .ok rest) :
    pass care (input ++ more) = .ok (rest ++ more) := by
  have steps : 2 * (input ++ more).length + 2 = 2 * input.length + 2 + 2 * more.length := by
    rw [List.length_append]
    omega
  rw [pass, steps]
  exact walk_more care _ _ .before [] input rest more left done

end FunctionDiscovery.Json
