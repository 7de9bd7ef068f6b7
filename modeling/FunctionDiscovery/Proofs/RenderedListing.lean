import FunctionDiscovery.Listing.Load
import FunctionDiscovery.Proofs.JsonGrammar
import FunctionDiscovery.Proofs.ListingFaults

set_option autoImplicit false

namespace FunctionDiscovery.Listing

open FunctionDiscovery.Json

structure Description where
  start : Address
  stop : Address
  target : Option Address
  call : Bool
  indirect : Bool

namespace Description

def flags (d : Description) : UInt32 :=
  match d.call, d.indirect with
  | false, _ => 0
  | true, false => Flags.call
  | true, true => Flags.call ||| Flags.indirect

def block (d : Description) : Block := ⟨d.start, d.stop, d.target.getD 0, d.flags⟩

theorem block_flags (d : Description) :
    d.block.isCall = d.call ∧ d.block.isIndirect = (d.call && d.indirect) ∧ d.block.isClaimed = false := by
  rcases d with ⟨start, stop, target, call, indirect⟩
  simp only [Block.isCall, Block.isIndirect, Block.isClaimed, block, flags]
  cases call <;> cases indirect <;> decide

end Description

inductive AddressText (a : Address) : Bytes → Prop
  | decimal : AddressText a (ascii a.decimal)
  | hex (digits : List Char) (spelled : Bytes) (value : Numeral.Hex a.toNat digits)
      (spelling : Spelled ('0' :: 'x' :: digits) spelled) : AddressText a (quote :: spelled ++ [quote])

inductive Field where
  | start
  | stop
  | target
  | call
  | indirect
deriving DecidableEq

def Field.name : Field → String
  | .start => "start"
  | .stop => "end"
  | .target => "target"
  | .call => "call"
  | .indirect => "indirect"

-- A field may be left out if it says no more than that.
def Description.Omits (d : Description) : Field → Prop
  | .start => False
  | .stop => False
  | .target => d.target = none
  | .call => d.call = false
  | .indirect => d.indirect = false

def booleanText (b : Bool) : Bytes := ascii (if b then "true" else "false")

def Description.Gives (d : Description) : Field → Bytes → Prop
  | .start, value => AddressText d.start value
  | .stop, value => AddressText d.stop value
  | .target, value =>
    match d.target with
    | none => value = ascii "null"
    | some target => AddressText target value
  | .call, value => value = booleanText d.call
  | .indirect, value => value = booleanText d.indirect

inductive BlockText (d : Description) : Bytes → Prop
  | intro (fields : List Field) (before members behind : Bytes) (blankBefore : Blanks before) (distinct : fields.Nodup)
      (complete : ∀ field, field ∉ fields → d.Omits field)
      (separated : Separated (fun field => Member field.name (d.Gives field)) fields members) (blankBehind : Blanks behind) :
      BlockText d (before ++ openBrace :: members ++ closeBrace :: behind)

inductive ArrayText (ds : List Description) : Bytes → Prop
  | intro (items : Bytes) (listed : Listed BlockText ds items) : ArrayText ds (openBracket :: items ++ [closeBracket])

inductive ListingText (ds : List Description) : Bytes → Prop
  | intro (before member behind : Bytes) (blankBefore : Blanks before) (given : Member "blocks" (ArrayText ds) member)
      (blankBehind : Blanks behind) : ListingText ds (before ++ openBrace :: member ++ closeBrace :: behind)

def Leads (b : UInt8) : Prop := isBlank b = false ∧ b ≠ openBracket ∧ b ≠ openBrace ∧ b ≠ letterN

instance (b : UInt8) : Decidable (Leads b) := inferInstanceAs (Decidable (_ ∧ _))

theorem digit_leads (b : UInt8) (digit : isDigit b = true) : Leads b := by
  have other (c : UInt8) (none : isDigit c = false) : b ≠ c := by
    intro same
    rw [same, none] at digit
    exact Bool.false_ne_true digit
  refine ⟨?_, other _ (by decide), other _ (by decide), other _ (by decide)⟩
  simp [isBlank, other 0x20 (by decide), other 0x0a (by decide), other 0x0d (by decide), other 0x09 (by decide)]

theorem address_leads (a : Address) (value : Bytes) (given : AddressText a value) :
    ∃ b others, value = b :: others ∧ Leads b := by
  cases given with
  | decimal =>
    cases run : (Nat.toDigits 10 a.toNat).map octet with
    | nil => exact absurd (List.map_eq_nil_iff.mp run) Nat.toDigits_ne_nil
    | cons b others =>
      exact ⟨b, others, (decimal_octets a.toNat).trans run,
        digit_leads b (decimal_digits a.toNat b (run ▸ List.mem_cons_self))⟩
  | hex digits spelled _ _ => exact ⟨quote, spelled ++ [quote], rfl, by decide⟩

theorem skip_address (a : Address) (after value rest : Bytes) (blank : Blanks after) (given : AddressText a value) :
    skipBlank (after ++ (value ++ rest)) = value ++ rest := by
  obtain ⟨b, others, rfl, plain, -⟩ := address_leads a value given
  rw [skip_blanks after _ blank, List.cons_append, skip_none _ _ plain]

theorem written_atom (input rest : Bytes) (b : UInt8) (start : skipBlank input = b :: rest) (leads : Leads b) :
    written input =
      match atom (.kept addressDepth) (skipBlank input) with
      | .error fault => .error fault
      | .ok (.natural n, rest) =>
        if n < UInt64.size then .ok (.number (UInt64.ofNat n), rest) else .error .mismatch
      | .ok (.text text, rest) => .ok (.text text, rest)
      | .ok _ => .error .mismatch := by
  rw [written]
  split
  · rename_i bracket
    exact absurd (List.cons.inj (start.symm.trans bracket)).1 leads.2.1
  · rename_i brace
    exact absurd (List.cons.inj (start.symm.trans brace)).1 leads.2.2.1
  · rfl

theorem written_read (a : Address) (after value rest : Bytes) (blank : Blanks after) (given : AddressText a value)
    (ends : Ends rest) : ∃ w, written (after ++ (value ++ rest)) = .ok (w, rest) ∧ w.address = .ok a := by
  have skipped := skip_address a after value rest blank given
  obtain ⟨b, others, lead, leads⟩ := address_leads a value given
  rw [written_atom _ (others ++ rest) b (by rw [skipped, lead, List.cons_append]) leads, skipped]
  cases given with
  | decimal =>
    rw [Address.decimal, atom_decimal addressDepth a.toNat rest a.toNat_lt ends]
    exact ⟨.number a, by simp [a.toNat_lt], rfl⟩
  | hex digits spelled hex spelling =>
    have letters := spelled_letters _ _ spelling
    have string : atom (.kept addressDepth) (quote :: spelled ++ [quote] ++ rest) =
        (text (.kept addressDepth) (spelled ++ quote :: rest)).map fun found => (.text found.1, found.2) := by
      rw [List.cons_append, List.cons_append, List.append_assoc, List.singleton_append]
      rfl
    rw [string, text_spelled addressDepth _ spelled rest spelling]
    refine ⟨.text (String.ofList ('0' :: 'x' :: digits)), rfl, Address.parse_hex a digits hex ?_⟩
    intro c listed
    exact letters c (List.mem_cons_of_mem _ (List.mem_cons_of_mem _ listed))

theorem target_read (d : Description) (after value rest : Bytes) (blank : Blanks after) (given : d.Gives .target value)
    (ends : Ends rest) :
    ∃ w, target (after ++ (value ++ rest)) = .ok (w, rest) ∧ w.map Written.address = d.target.map .ok := by
  cases chosen : d.target with
  | none =>
    simp only [Description.Gives, chosen] at given
    subst given
    refine ⟨none, ?_, rfl⟩
    rw [target, skip_blanks after _ blank]
    rfl
  | some a =>
    simp only [Description.Gives, chosen] at given
    obtain ⟨w, read, shown⟩ := written_read a [] value rest (fun _ member => absurd member List.not_mem_nil) given ends
    refine ⟨some w, ?_, by rw [Option.map_some, Option.map_some, shown]⟩
    obtain ⟨b, others, lead, leads⟩ := address_leads a value given
    rw [target, skip_address a after value rest blank given]
    split
    · rename_i same
      rw [lead, List.cons_append] at same
      exact absurd (List.cons.inj same).1 leads.2.2.2
    · rw [List.nil_append] at read
      rw [read]
      rfl

theorem boolean_read (b : Bool) (after rest : Bytes) (blank : Blanks after) :
    boolean (after ++ (booleanText b ++ rest)) = .ok (b, rest) := by
  rw [boolean, skip_blanks after _ blank]
  cases b <;> rfl

-- A draft after some fields: those have the values described, the others none.
structure Draft.Holds (draft : Draft) (d : Description) (done : List Field) : Prop where
  start : draft.start.map Written.address = if .start ∈ done then some (.ok d.start) else none
  stop : draft.stop.map Written.address = if .stop ∈ done then some (.ok d.stop) else none
  target : draft.target.map (Option.map Written.address) = if .target ∈ done then some (d.target.map .ok) else none
  call : draft.call = if .call ∈ done then some d.call else none
  indirect : draft.indirect = if .indirect ∈ done then some d.indirect else none

theorem holds_nothing (d : Description) : ({} : Draft).Holds d [] := ⟨rfl, rfl, rfl, rfl, rfl⟩

theorem fresh_read {α β : Type} (given : Option α) (view : α → β) (read : Bytes → Except Json.Fault (α × Bytes))
    (between rest : Bytes) (absent : given.map view = none) (blank : Blanks between) :
    fresh given read (between ++ colon :: rest) = read rest := by
  rw [Option.map_eq_none_iff] at absent
  rw [fresh, absent, separator_colon between rest blank]
  rfl

theorem member_read (d : Description) (field : Field) (draft : Draft) (done : List Field) (between after value rest : Bytes)
    (holds : draft.Holds d done) (new : field ∉ done) (blankBetween : Blanks between) (blankAfter : Blanks after)
    (given : d.Gives field value) (ends : Ends rest) :
    ∃ next : Draft, draft.member field.name (between ++ colon :: (after ++ (value ++ rest))) = .ok (next, rest) ∧
      next.Holds d (field :: done) := by
  obtain ⟨start, stop, target, call, indirect⟩ := holds
  cases field with
  | start =>
    rw [if_neg new] at start
    obtain ⟨w, read, shown⟩ := written_read d.start after value rest blankAfter given ends
    refine ⟨{ draft with start := some w }, ?_, by simp [shown], by simpa using stop, by simpa using target,
      by simpa using call, by simpa using indirect⟩
    rw [Field.name, Draft.member, fresh_read _ _ _ _ _ start blankBetween, read]
    rfl
  | stop =>
    rw [if_neg new] at stop
    obtain ⟨w, read, shown⟩ := written_read d.stop after value rest blankAfter given ends
    refine ⟨{ draft with stop := some w }, ?_, by simpa using start, by simp [shown], by simpa using target,
      by simpa using call, by simpa using indirect⟩
    rw [Field.name, Draft.member, fresh_read _ _ _ _ _ stop blankBetween, read]
    rfl
  | target =>
    rw [if_neg new] at target
    obtain ⟨w, read, shown⟩ := target_read d after value rest blankAfter given ends
    refine ⟨{ draft with target := some w }, ?_, by simpa using start, by simpa using stop, by simp [shown],
      by simpa using call, by simpa using indirect⟩
    rw [Field.name, Draft.member, fresh_read _ _ _ _ _ target blankBetween, read]
    rfl
  | call =>
    rw [if_neg new] at call
    obtain rfl : value = booleanText d.call := given
    refine ⟨{ draft with call := some d.call }, ?_, by simpa using start, by simpa using stop, by simpa using target,
      by simp, by simpa using indirect⟩
    rw [Field.name, Draft.member, fresh_read _ id _ _ _ (by rw [call]; rfl) blankBetween, boolean_read _ _ _ blankAfter]
    rfl
  | indirect =>
    rw [if_neg new] at indirect
    obtain rfl : value = booleanText d.indirect := given
    refine ⟨{ draft with indirect := some d.indirect }, ?_, by simpa using start, by simpa using stop,
      by simpa using target, by simpa using call, by simp⟩
    rw [Field.name, Draft.member, fresh_read _ id _ _ _ (by rw [indirect]; rfl) blankBetween,
      boolean_read _ _ _ blankAfter]
    rfl

theorem block_shown (d : Description) (start stop : Written) (target : Option Written) (started : start.address = .ok d.start)
    (stopped : stop.address = .ok d.stop) (targeted : target.map Written.address = d.target.map .ok) :
    (Entry.mk start stop target d.call d.indirect).block = .ok d.block := by
  have flags : (Entry.mk start stop target d.call d.indirect).flags = d.flags := by
    rw [Entry.flags, Description.flags]
    cases d.call <;> cases d.indirect <;> simp
  rw [Entry.block, flags, started, stopped, Description.block]
  cases target with
  | none =>
    obtain none := Option.map_eq_none_iff.mp targeted.symm
    rw [none]
    rfl
  | some w =>
    obtain ⟨a, chosen, shown⟩ := Option.map_eq_some_iff.mp targeted.symm
    simp only [chosen, ← shown]
    rfl

theorem flag_held (given : Option Bool) (flag : Bool) (listed : Prop) [Decidable listed]
    (held : given = if listed then some flag else none) (omitted : ¬ listed → flag = false) : given.getD false = flag := by
  rw [held]
  by_cases present : listed
  · rw [if_pos present, Option.getD_some]
  · rw [if_neg present, Option.getD_none, omitted present]

theorem entry_held (d : Description) (draft : Draft) (done : List Field) (holds : draft.Holds d done)
    (complete : ∀ field, field ∉ done → d.Omits field) : ∃ e, draft.entry? = some e ∧ e.block = .ok d.block := by
  have started : Field.start ∈ done := Decidable.byContradiction (complete .start)
  have stopped : Field.stop ∈ done := Decidable.byContradiction (complete .stop)
  obtain ⟨start, given, shown⟩ := Option.map_eq_some_iff.mp (holds.start.trans (if_pos started))
  obtain ⟨stop, given', shown'⟩ := Option.map_eq_some_iff.mp (holds.stop.trans (if_pos stopped))
  have target : (draft.target.getD none).map Written.address = d.target.map .ok := by
    by_cases listed : Field.target ∈ done
    · obtain ⟨t, chosen, same⟩ := Option.map_eq_some_iff.mp (holds.target.trans (if_pos listed))
      rw [chosen, Option.getD_some, same]
    · have absent := Option.map_eq_none_iff.mp (holds.target.trans (if_neg listed))
      have none : d.target = none := complete .target listed
      rw [absent, none]
      rfl
  have call := flag_held draft.call d.call (Field.call ∈ done) holds.call (complete .call)
  have indirect := flag_held draft.indirect d.indirect (Field.indirect ∈ done) holds.indirect (complete .indirect)
  refine ⟨⟨start, stop, draft.target.getD none, draft.call.getD false, draft.indirect.getD false⟩, ?_, ?_⟩
  · rw [Draft.entry?, given, given']
    rfl
  · rw [call, indirect]
    exact block_shown d start stop (draft.target.getD none) shown shown' target

theorem ends_behind (blanks rest : Bytes) (b : UInt8) (blank : Blanks blanks)
    (closing : b = comma ∨ b = closeBracket ∨ b = closeBrace) : Ends (blanks ++ b :: rest) := by
  cases blanks with
  | nil => exact ⟨b, rest, rfl, .inr closing⟩
  | cons first others => exact ⟨first, others ++ b :: rest, rfl, .inl (blank first List.mem_cons_self)⟩

theorem field_read (d : Description) (field : Field) (bytes rest : Bytes) (b : UInt8) (draft : Draft) (done : List Field)
    (fuel : Nat) (first : Bool) (opening : Bytes) (item : Member field.name (d.Gives field) bytes)
    (closing : b = comma ∨ b = closeBracket ∨ b = closeBrace) (holds : draft.Holds d done) (new : field ∉ done)
    (opened : Opening first opening) :
    ∃ (next : Draft) (behind : Bytes), Blanks behind ∧ next.Holds d (field :: done) ∧
      blockMembers (fuel + 1) first draft (opening ++ (bytes ++ b :: rest)) =
        blockMembers fuel false next (behind ++ b :: rest) := by
  cases item with
  | intro before spelled between after value behind blankBefore named blankBetween blankAfter given blankBehind =>
    obtain ⟨next, read, held⟩ := member_read d field draft done between after value (behind ++ b :: rest) holds new
      blankBetween blankAfter given (ends_behind behind rest b blankBehind closing)
    refine ⟨next, behind, blankBehind, held, ?_⟩
    simp only [List.append_assoc, List.cons_append]
    rw [blockMembers, member_name_next first opening before spelled _ field.name opened blankBefore named]
    simp only [read]

theorem members_read (d : Description) (fields : List Field) (members rest : Bytes)
    (separated : Separated (fun field => Member field.name (d.Gives field)) fields members) (draft : Draft)
    (done : List Field) (fuel : Nat) (first : Bool) (opening : Bytes) (enough : fields.length < fuel)
    (holds : draft.Holds d done) (distinct : (fields.reverse ++ done).Nodup)
    (complete : ∀ field, field ∉ fields.reverse ++ done → d.Omits field) (opened : Opening first opening) :
    ∃ e, blockMembers fuel first draft (opening ++ (members ++ closeBrace :: rest)) = .ok (e, rest) ∧
      e.block = .ok d.block := by
  -- Induction on the fields that are left; those read stand reversed in `done`.
  induction separated generalizing draft done fuel first opening with
  | last field bytes item =>
    obtain ⟨fuel, rfl⟩ : ∃ n, fuel = n + 2 := ⟨fuel - 2, by simp at enough; omega⟩
    have new : field ∉ done := (List.nodup_cons.mp distinct).1
    obtain ⟨next, behind, blank, held, step⟩ := field_read d field bytes rest closeBrace draft done (fuel + 1) first opening
      item (.inr (.inr rfl)) holds new opened
    obtain ⟨e, found, shown⟩ := entry_held d next (field :: done) held complete
    refine ⟨e, ?_, shown⟩
    rw [step, blockMembers, member_name_end false behind rest blank]
    simp only [found]
  | more field others bytes following item _ ih =>
    obtain ⟨fuel, rfl⟩ : ∃ n, fuel = n + 1 := ⟨fuel - 1, by omega⟩
    rw [List.reverse_cons, List.append_assoc, List.singleton_append] at distinct complete
    have new : field ∉ done := (List.nodup_cons.mp (List.nodup_append.mp distinct).2.1).1
    obtain ⟨next, behind, blank, held, step⟩ := field_read d field bytes (following ++ closeBrace :: rest) comma draft done
      fuel first opening item (.inl rfl) holds new opened
    obtain ⟨e, read, shown⟩ := ih next (field :: done) fuel false (behind ++ [comma]) (by simpa using enough) held distinct
      complete ⟨behind, blank, rfl⟩
    refine ⟨e, ?_, shown⟩
    rw [List.append_assoc, List.cons_append, step, ← read, List.append_assoc, List.singleton_append]

theorem member_filled (name : String) (Value : Bytes → Prop) (bytes : Bytes) (item : Member name Value bytes) :
    0 < bytes.length := by
  cases item with
  | intro => simp

theorem entry_read (d : Description) (fields : List Field) (members rest : Bytes) (distinct : fields.Nodup)
    (complete : ∀ field, field ∉ fields → d.Omits field)
    (separated : Separated (fun field => Member field.name (d.Gives field)) fields members) :
    ∃ e, entry (openBrace :: (members ++ closeBrace :: rest)) = .ok (e, rest) ∧ e.block = .ok d.block := by
  have size := separated_length _ fields members separated fun field bytes => member_filled field.name _ bytes
  have enough : fields.length < (members ++ closeBrace :: rest).length := by
    rw [List.length_append, List.length_cons]
    omega
  have reversed : (fields.reverse ++ []).Nodup := by
    rw [List.append_nil]
    exact fields.reverse_perm.nodup_iff.mpr distinct
  obtain ⟨e, read, shown⟩ := members_read d fields members rest separated {} [] _ true [] enough (holds_nothing d) reversed
    (by simpa using complete) rfl
  refine ⟨e, ?_, shown⟩
  rw [entry, skip_none _ _ (by decide)]
  exact read

theorem block_read (d : Description) (bytes rest : Bytes) (fuel : Nat) (first : Bool) (opening : Bytes)
    (item : BlockText d bytes) (opened : Opening first opening) :
    ∃ (e : Entry) (behind : Bytes), Blanks behind ∧ e.block = .ok d.block ∧
      ∀ es left, entriesFrom fuel false (behind ++ rest) = .ok (es, left) →
        entriesFrom (fuel + 1) first (opening ++ (bytes ++ rest)) = .ok (e :: es, left) := by
  cases item with
  | intro fields before members behind blankBefore distinct complete separated blankBehind =>
    obtain ⟨e, read, shown⟩ := entry_read d fields members (behind ++ rest) distinct complete separated
    refine ⟨e, behind, blankBehind, shown, fun es left others => ?_⟩
    simp only [List.append_assoc, List.cons_append]
    rw [entriesFrom, element_next first opening before _ opened blankBefore]
    simp only [read, others]
    rfl

theorem blocks_read (ds : List Description) (items rest : Bytes) (separated : Separated BlockText ds items) (fuel : Nat)
    (first : Bool) (opening : Bytes) (enough : ds.length < fuel) (opened : Opening first opening) :
    ∃ es, entriesFrom fuel first (opening ++ (items ++ closeBracket :: rest)) = .ok (es, rest) ∧
      es.map Entry.block = ds.map fun d => .ok d.block := by
  induction separated generalizing fuel first opening with
  | last d bytes item =>
    obtain ⟨fuel, rfl⟩ : ∃ n, fuel = n + 2 := ⟨fuel - 2, by simp at enough; omega⟩
    obtain ⟨e, behind, blank, shown, step⟩ := block_read d bytes (closeBracket :: rest) (fuel + 1) first opening item opened
    refine ⟨[e], step [] rest ?_, by rw [List.map_singleton, List.map_singleton, shown]⟩
    rw [entriesFrom, element_end false behind rest blank]
    rfl
  | more d others bytes following item _ ih =>
    obtain ⟨fuel, rfl⟩ : ∃ n, fuel = n + 1 := ⟨fuel - 1, by omega⟩
    obtain ⟨e, behind, blank, shown, step⟩ := block_read d bytes (comma :: (following ++ closeBracket :: rest)) fuel first
      opening item opened
    obtain ⟨es, read, blocks⟩ := ih fuel false (behind ++ [comma]) (by simpa using enough) ⟨behind, blank, rfl⟩
    rw [List.append_assoc, List.singleton_append] at read
    refine ⟨e :: es, ?_, by rw [List.map_cons, List.map_cons, shown, blocks]⟩
    rw [List.append_assoc, List.cons_append]
    exact step es rest read

theorem block_filled (d : Description) (bytes : Bytes) (item : BlockText d bytes) : 0 < bytes.length := by
  cases item with
  | intro => simp

theorem entries_read (ds : List Description) (after value rest : Bytes) (blank : Blanks after) (given : ArrayText ds value) :
    ∃ es, entries (after ++ (value ++ rest)) = .ok (es, rest) ∧ es.map Entry.block = ds.map fun d => .ok d.block := by
  cases given with
  | intro items listed =>
    simp only [List.append_assoc, List.cons_append, List.nil_append]
    rw [entries, skip_blanks after _ blank, skip_none _ _ (by decide)]
    cases listed with
    | nothing blanks blank =>
      refine ⟨[], ?_, rfl⟩
      change entriesFrom (items ++ closeBracket :: rest).length true (items ++ closeBracket :: rest) = _
      rw [List.length_append, List.length_cons, ← Nat.add_assoc, entriesFrom, element_end true items rest blank]
      rfl
    | items ds bytes separated =>
      have size := separated_length _ ds items separated block_filled
      have enough : ds.length < (items ++ closeBracket :: rest).length := by
        rw [List.length_append, List.length_cons]
        omega
      exact blocks_read ds items rest separated _ true [] enough rfl

theorem listing_read (ds : List Description) (before member rest : Bytes) (blankBefore : Blanks before)
    (given : Member "blocks" (ArrayText ds) member) :
    ∃ es, listing (before ++ openBrace :: (member ++ closeBrace :: rest)) = .ok (es, rest) ∧
      es.map Entry.block = ds.map fun d => .ok d.block := by
  have filled := member_filled "blocks" _ member given
  obtain ⟨fuel, size⟩ : ∃ n, (member ++ closeBrace :: rest).length = n + 2 :=
    ⟨(member ++ closeBrace :: rest).length - 2, by rw [List.length_append, List.length_cons]; omega⟩
  rw [listing, skip_blanks before _ blankBefore, skip_none _ _ (by decide)]
  change ∃ es, listingMembers (member ++ closeBrace :: rest).length true none (member ++ closeBrace :: rest) = _ ∧ _
  rw [size]
  cases given with
  | intro before spelled between after value behind blankBefore named blankBetween blankAfter given blankBehind =>
    obtain ⟨es, found, blocks⟩ := entries_read ds after value (behind ++ closeBrace :: rest) blankAfter given
    refine ⟨es, ?_, blocks⟩
    simp only [List.append_assoc, List.cons_append]
    have name := member_name_next true [] before spelled
      (between ++ colon :: (after ++ (value ++ (behind ++ closeBrace :: rest)))) "blocks" rfl blankBefore named
    rw [List.nil_append] at name
    have array : fresh none entries (between ++ colon :: (after ++ (value ++ (behind ++ closeBrace :: rest)))) = _ :=
      (fresh_read none id entries between _ rfl blankBetween).trans found
    rw [listingMembers, name]
    simp only [array]
    rw [listingMembers, member_name_end false behind rest blankBehind]

theorem read_rendered (ds : List Description) (text : Bytes) (rendered : ListingText ds text) :
    ∃ es, read text = .ok es ∧ es.map Entry.block = ds.map fun d => .ok d.block := by
  cases rendered with
  | intro before member behind blankBefore given blankBehind =>
    obtain ⟨es, found, blocks⟩ := listing_read ds before member behind blankBefore given
    have finished := skip_blanks behind [] blankBehind
    rw [List.append_nil] at finished
    refine ⟨es, ?_, blocks⟩
    rw [read, List.append_assoc, List.cons_append, found]
    simp only [bind, Except.bind, finished]
    rfl

theorem blocks_shown (ds : List Description) (es : List Entry) (index : Nat)
    (blocks : es.map Entry.block = ds.map fun d => .ok d.block) : blocksFrom index es = .ok (ds.map Description.block) := by
  rw [blocks_from_ok_iff, blocks, List.map_map]
  rfl

theorem rendered_read_back (ds : List Description) (text : Bytes) (rendered : ListingText ds text) :
    parse text = (BlockMap.ofList (ds.map Description.block)).mapError Fault.order ∧
      ∀ d ∈ ds, d.block.start = d.start ∧ d.block.stop = d.stop ∧ d.block.target = d.target.getD 0 ∧
        d.block.isCall = d.call ∧ d.block.isIndirect = (d.call && d.indirect) ∧ d.block.isClaimed = false := by
  constructor
  · obtain ⟨es, found, blocks⟩ := read_rendered ds text rendered
    rw [parse, found]
    simp only [convert, blocks_shown ds es 0 blocks]
    cases BlockMap.ofList (ds.map Description.block) <;> rfl
  · intro d _
    exact ⟨rfl, rfl, rfl, d.block_flags⟩

def plainBlock : Description := ⟨0x1000, 0x2000, none, false, false⟩

def cellCall : Description := ⟨0x2000, 0x20ff, some 0x3000, true, true⟩

def mixedText : Bytes := ascii
  "\x7b\"blocks\":[\x7b\"\\u0065nd\": 8192, \"target\": null, \"start\": \"0x1000\"\x7d,
    \x7b\"indirect\":true,\"start\":8192,\"target\":\"0x3000\",\"end\":\"0x0020fF\",\"call\":true\x7d]\x7d"

theorem member_compact (name : String) (Value : Bytes → Prop) (before after value : Bytes) (blankBefore : Blanks before)
    (blankAfter : Blanks after) (letters : name.toList.all Char.isAlphanum = true) (given : Value value) :
    Member name Value (before ++ quote :: ascii name ++ [quote] ++ colon :: after ++ value ++ []) :=
  .intro before (ascii name) [] after value [] blankBefore (spelled_plain name.toList letters) (by decide) blankAfter given
    (by decide)

theorem hex_compact (a : Address) (zeros : Nat) (digits : List Char)
    (lowered : digits.map Char.toLower = List.replicate zeros '0' ++ Nat.toDigits 16 a.toNat)
    (letters : ('0' :: 'x' :: digits).all Char.isAlphanum = true) :
    AddressText a (quote :: ('0' :: 'x' :: digits).map octet ++ [quote]) :=
  .hex digits _ ⟨zeros, lowered⟩ (spelled_plain _ letters)

theorem plain_block_text : ∃ bytes, BlockText plainBlock bytes ∧
    bytes = ascii "\x7b\"\\u0065nd\": 8192, \"target\": null, \"start\": \"0x1000\"\x7d" := by
  have spelled : Spelled "end".toList (ascii "\\u0065nd") :=
    .coded 'e' ['n', 'd'] [0x6e, 0x64] 0x30 0x30 0x36 0x35 (by decide) (by decide) (spelled_plain ['n', 'd'] (by decide))
  have stop : Member Field.stop.name (plainBlock.Gives .stop) _ :=
    .intro [] _ [] [0x20] _ [] (by decide) spelled (by decide) (by decide) .decimal (by decide)
  have target : Member Field.target.name (plainBlock.Gives .target) _ :=
    member_compact "target" _ [0x20] [0x20] (ascii "null") (by decide) (by decide) (by decide) rfl
  have start : Member Field.start.name (plainBlock.Gives .start) _ :=
    member_compact "start" _ [0x20] [0x20] _ (by decide) (by decide) (by decide)
      (hex_compact 0x1000 0 ['1', '0', '0', '0'] (by decide) (by decide))
  have complete : ∀ field, field ∉ [Field.stop, .target, .start] → plainBlock.Omits field := by
    intro field
    cases field <;> simp [Description.Omits, plainBlock]
  refine ⟨_, .intro [.stop, .target, .start] [] _ [] (by decide) (by decide) complete
    (.more _ _ _ _ stop (.more _ _ _ _ target (.last _ _ start))) (by decide), by decide +kernel⟩

theorem cell_call_text : ∃ bytes, BlockText cellCall bytes ∧ bytes = ascii
    "\n    \x7b\"indirect\":true,\"start\":8192,\"target\":\"0x3000\",\"end\":\"0x0020fF\",\"call\":true\x7d" := by
  have indirect : Member Field.indirect.name (cellCall.Gives .indirect) _ :=
    member_compact "indirect" _ [] [] _ (by decide) (by decide) (by decide) rfl
  have start : Member Field.start.name (cellCall.Gives .start) _ :=
    member_compact "start" _ [] [] _ (by decide) (by decide) (by decide) .decimal
  have target : Member Field.target.name (cellCall.Gives .target) _ :=
    member_compact "target" _ [] [] _ (by decide) (by decide) (by decide)
      (hex_compact 0x3000 0 ['3', '0', '0', '0'] (by decide) (by decide))
  have stop : Member Field.stop.name (cellCall.Gives .stop) _ :=
    member_compact "end" _ [] [] _ (by decide) (by decide) (by decide)
      (hex_compact 0x20ff 2 ['0', '0', '2', '0', 'f', 'F'] (by decide) (by decide))
  have call : Member Field.call.name (cellCall.Gives .call) _ :=
    member_compact "call" _ [] [] _ (by decide) (by decide) (by decide) rfl
  have complete : ∀ field, field ∉ [Field.indirect, .start, .target, .stop, .call] → cellCall.Omits field := by
    intro field
    cases field <;> simp
  refine ⟨_, .intro [.indirect, .start, .target, .stop, .call] (ascii "\n    ") _ [] (by decide) (by decide) complete
    (.more _ _ _ _ indirect (.more _ _ _ _ start (.more _ _ _ _ target (.more _ _ _ _ stop (.last _ _ call))))) (by decide),
    by decide +kernel⟩

theorem mixed_text : ListingText [plainBlock, cellCall] mixedText := by
  obtain ⟨first, plain, firstBytes⟩ := plain_block_text
  obtain ⟨second, cell, secondBytes⟩ := cell_call_text
  have array : ArrayText [plainBlock, cellCall] _ := .intro _ (.items _ _ (.more _ _ _ _ plain (.last _ _ cell)))
  have member := member_compact "blocks" (ArrayText [plainBlock, cellCall]) [] [] _ (by decide) (by decide) (by decide) array
  subst firstBytes secondBytes
  have bytes : ∃ text, ListingText [plainBlock, cellCall] text ∧ text = mixedText :=
    ⟨_, .intro [] _ [] (by decide) member (by decide), by decide +kernel⟩
  obtain ⟨text, rendered, same⟩ := bytes
  exact same ▸ rendered

theorem rendered_read_back_mixed :
    ListingText [plainBlock, cellCall] mixedText ∧
      (parse mixedText).toOption.map BlockMap.toList =
        some [⟨0x1000, 0x2000, 0, 0⟩, ⟨0x2000, 0x20ff, 0x3000, Flags.call ||| Flags.indirect⟩] := by
  refine ⟨mixed_text, ?_⟩
  rw [(rendered_read_back [plainBlock, cellCall] mixedText mixed_text).1]
  decide +kernel

end FunctionDiscovery.Listing
