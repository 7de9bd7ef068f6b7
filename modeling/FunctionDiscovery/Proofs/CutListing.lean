import FunctionDiscovery.Listing.Load
import FunctionDiscovery.Proofs.TextBehind
import Mathlib.Data.List.TakeWhile

set_option autoImplicit false

namespace FunctionDiscovery.Listing

open FunctionDiscovery.Json

inductive Shows : Atom → Written → Prop
  | number (n : Nat) (below : n < UInt64.size) : Shows (.natural n) (.number (UInt64.ofNat n))
  | text (value : String) : Shows (.text value) (.text value)

theorem walked_fails (input rest : Bytes) (w : Written) : written.walked input ≠ .ok (w, rest) := by
  rw [written.walked]
  cases pass (.kept addressDepth) input <;> simp

theorem written_ok_iff (input rest : Bytes) (w : Written) :
    written input = .ok (w, rest) ↔
      (∀ tail, skipBlank input ≠ openBracket :: tail) ∧ (∀ tail, skipBlank input ≠ openBrace :: tail) ∧
        ∃ x, atom (.kept addressDepth) (skipBlank input) = .ok (x, rest) ∧ Shows x w := by
  constructor
  · fun_cases written input with
    | case1 | case2 => exact fun done => absurd done (walked_fails _ rest w)
    | case4 n left below bracket brace found =>
      intro done
      obtain ⟨rfl, rfl⟩ := Prod.mk.inj (Except.ok.inj done)
      exact ⟨bracket, brace, .natural n, found, .number n below⟩
    | case6 value left bracket brace found =>
      intro done
      obtain ⟨rfl, rfl⟩ := Prod.mk.inj (Except.ok.inj done)
      exact ⟨bracket, brace, .text value, found, .text value⟩
    | _ => simp
  · rintro ⟨bracket, brace, x, found, shown⟩
    rw [written]
    split
    · exact absurd ‹_› (bracket _)
    · exact absurd ‹_› (brace _)
    · rw [found]
      cases shown with
      | number n below => exact if_pos below
      | text value => rfl

theorem written_more : Settled written := by
  intro input w rest more left done
  obtain ⟨bracket, brace, x, found, shown⟩ := (written_ok_iff input rest w).mp done
  have present : skipBlank input ≠ [] := by
    intro empty
    rw [empty] at found
    exact nomatch found
  rw [written_ok_iff, skip_more input more present]
  exact ⟨other_first _ _ more present bracket, other_first _ _ more present brace, x,
    atom_more _ _ x rest more left found, shown⟩

theorem target_more : Settled target := by
  intro input w rest more left
  fun_cases target input with
  | case1 tail start =>
    rw [target, first_more input more tail _ start]
    exact rest_map_more none w _ _ rest more (expect_more _ tail rest more)
  | case2 other =>
    intro done
    have present : skipBlank input ≠ [] := by
      intro empty
      rw [empty] at done
      exact nomatch done
    rw [target, skip_more input more present]
    split
    · exact absurd ‹_› (other_first _ _ more present other _)
    · exact map_more some _ _ w rest more (fun x => written_more (skipBlank input) x rest more left) done

section Parts

variable {α : Type} (read : Bytes → Except Json.Fault (α × Bytes)) (settled : Settled read)

include settled

theorem fresh_more (given : Option α) : Settled (fresh given read) := by
  intro input x rest more left
  fun_cases fresh given read input with
  | case3 absent middle colon =>
    intro done
    rw [fresh, if_neg absent, separator_more input middle more colon]
    exact settled middle x rest more left done
  | _ => simp

theorem required_more (first : Bool) : Settled (required first read) := by
  intro input x rest more left
  refine bind_more _ _ _ x rest more fun present middle found finished => ?_
  cases present with
  | false => contradiction
  | true => exact ⟨element_more first input true middle more found, settled middle x rest more left finished⟩

theorem optional_more (absent : α) : Settled (optional absent read) := by
  intro input x rest more left
  refine bind_more _ _ _ x rest more fun present middle found finished => ?_
  cases present with
  | false =>
    obtain ⟨rfl, rfl⟩ := Prod.mk.inj (Except.ok.inj finished)
    exact ⟨element_more false input false middle more found, rfl⟩
  | true => exact ⟨element_more false input true middle more found, settled middle x rest more left finished⟩

end Parts

theorem skip_member_more (input rest more : Bytes) (left : rest ≠ []) (done : skipMember input = .ok rest) :
    skipMember (input ++ more) = .ok (rest ++ more) := by
  revert done
  fun_cases skipMember input with
  | case2 middle colon =>
    intro done
    rw [skipMember, separator_more input middle more colon]
    exact pass_more .skipped middle rest more left done
  | _ => simp

theorem draft_member_more (draft : Draft) (name : String) : Settled (draft.member name) := by
  intro input next rest more left
  fun_cases Draft.member draft name input with
  | case1 =>
    rw [Draft.member]
    exact map_more (fun start => { draft with start := some start }) _ _ next rest more
      fun x => fresh_more written written_more draft.start input x rest more left
  | case2 =>
    rw [Draft.member]
    exact map_more (fun stop => { draft with stop := some stop }) _ _ next rest more
      fun x => fresh_more written written_more draft.stop input x rest more left
  | case3 =>
    rw [Draft.member]
    exact map_more (fun target => { draft with target := some target }) _ _ next rest more
      fun x => fresh_more target target_more draft.target input x rest more left
  | case4 =>
    rw [Draft.member]
    exact map_more (fun call => { draft with call := some call }) _ _ next rest more
      fun x => fresh_more boolean (closed_settled boolean boolean_more) draft.call input x rest more left
  | case5 =>
    rw [Draft.member]
    exact map_more (fun indirect => { draft with indirect := some indirect }) _ _ next rest more
      fun x => fresh_more boolean (closed_settled boolean boolean_more) draft.indirect input x rest more left
  | case6 _ start stop target call indirect =>
    rw [Draft.member.eq_6 draft name (input ++ more) start stop target call indirect]
    exact rest_map_more draft next _ _ rest more (skip_member_more input rest more left)

theorem block_members_nothing (fuel : Nat) (draft : Draft) (e : Entry) (rest : Bytes) :
    blockMembers fuel false draft [] ≠ .ok (e, rest) := by
  cases fuel with
  | zero => exact nofun
  | succ fuel => exact nofun

theorem block_members_more (fuel extra : Nat) (first : Bool) (draft : Draft) (input rest more : Bytes) (e : Entry)
    (done : blockMembers fuel first draft input = .ok (e, rest)) :
    blockMembers (fuel + extra) first draft (input ++ more) = .ok (e, rest ++ more) := by
  fun_induction blockMembers fuel first draft input with
  | case4 fuel first draft input left ended given complete =>
    obtain ⟨rfl, rfl⟩ := Prod.mk.inj (Except.ok.inj done)
    rw [Nat.succ_add, blockMembers, member_name_more first input none left more ended]
    simp only [complete]
  | case6 fuel first draft input name value named next left read ih =>
    have between : left ≠ [] := fun empty => block_members_nothing fuel next e rest (empty ▸ done)
    rw [Nat.succ_add, blockMembers, member_name_more first input (some name) value more named]
    simp only [draft_member_more draft name value next left more between read, ih done]
  | _ => contradiction

theorem block_elements_more : Closed blockElements := by
  intro input e rest more
  refine settled_bind _ _ input e rest more (required_more written written_more true) (fun _ => nofun) fun start r1 => ?_
  refine settled_bind _ _ r1 e rest more (required_more written written_more false) (fun _ => nofun) fun stop r2 => ?_
  refine settled_bind _ _ r2 e rest more (optional_more target target_more none) (fun _ => nofun) fun target r3 => ?_
  have flag := optional_more boolean (closed_settled boolean boolean_more) false
  refine settled_bind _ _ r3 e rest more flag (fun _ => nofun) fun call r4 => ?_
  refine settled_bind _ _ r4 e rest more flag (fun _ => nofun) fun indirect r5 => ?_
  exact rest_map_more _ e _ _ rest more (array_end_more r5 rest more)

theorem entry_more : Closed entry := by
  intro input e rest more
  fun_cases entry input with
  | case1 tail start =>
    rw [entry, first_more input more tail _ start]
    exact block_elements_more tail e rest more
  | case2 tail start =>
    intro done
    have longer := block_members_more tail.length more.length true {} tail rest more e done
    rw [← List.length_append] at longer
    rw [entry, first_more input more tail _ start]
    exact longer
  | case3 => simp

theorem entries_from_more (fuel extra : Nat) (first : Bool) (input rest more : Bytes) (es : List Entry)
    (done : entriesFrom fuel first input = .ok (es, rest)) :
    entriesFrom (fuel + extra) first (input ++ more) = .ok (es, rest ++ more) := by
  fun_induction entriesFrom fuel first input generalizing es with
  | case3 fuel first input left ended =>
    obtain ⟨rfl, rfl⟩ := Prod.mk.inj (Except.ok.inj done)
    obtain ⟨-, tail, rfl⟩ := (element_end_iff first input left).mp ended
    rw [Nat.succ_add, entriesFrom, element_more first input false _ more ended]
    rfl
  | case5 fuel first input item present e left read ih =>
    rw [Nat.succ_add, entriesFrom, element_more first input true item more present]
    simp only [entry_more item e left more read]
    exact map_more (e :: ·) _ _ es rest more ih done
  | _ => contradiction

theorem entries_more : Closed entries := by
  intro input es rest more
  fun_cases entries input with
  | case1 tail start =>
    intro done
    have longer := entries_from_more tail.length more.length true tail rest more es done
    rw [← List.length_append] at longer
    rw [entries, first_more input more tail _ start]
    exact longer
  | case2 => simp

theorem listing_members_nothing (fuel : Nat) (found : Option (List Entry)) (es : List Entry) (rest : Bytes) :
    listingMembers fuel false found [] ≠ .ok (es, rest) := by
  cases fuel with
  | zero => exact nofun
  | succ fuel => exact nofun

theorem listing_members_more (fuel extra : Nat) (first : Bool) (found : Option (List Entry)) (input rest more : Bytes)
    (es : List Entry) (done : listingMembers fuel first found input = .ok (es, rest)) :
    listingMembers (fuel + extra) first found (input ++ more) = .ok (es, rest ++ more) := by
  fun_induction listingMembers fuel first found input with
  | case4 fuel first input left ended given =>
    obtain ⟨rfl, rfl⟩ := Prod.mk.inj (Except.ok.inj done)
    rw [Nat.succ_add, listingMembers, member_name_more first input none left more ended]
  | case6 fuel first found input value named given left read ih =>
    have between : left ≠ [] := fun empty => listing_members_nothing fuel (some given) es rest (empty ▸ done)
    have longer := fresh_more entries (closed_settled entries entries_more) found value given left more between read
    rw [Nat.succ_add, listingMembers, member_name_more first input (some "blocks") value more named]
    simp only [longer, ih done]
  | case8 fuel first found input name value other named left skipped ih =>
    have between : left ≠ [] := fun empty => listing_members_nothing fuel found es rest (empty ▸ done)
    have longer := skip_member_more value left more between skipped
    rw [Nat.succ_add, listingMembers, member_name_more first input (some name) value more named]
    split
    · contradiction
    · rename_i same
      exact nomatch (Prod.mk.inj (Except.ok.inj same)).1
    · rename_i same
      exact absurd (Option.some.inj (Prod.mk.inj (Except.ok.inj same)).1) other
    · rename_i same
      obtain ⟨-, rfl⟩ := Prod.mk.inj (Except.ok.inj same)
      simp only [longer, ih done]
  | _ => contradiction

theorem listing_more : Closed listing := by
  intro input es rest more
  fun_cases listing input with
  | case1 tail start =>
    rw [listing, first_more input more tail _ start]
    refine settled_bind _ _ tail es rest more (required_more entries (closed_settled entries entries_more) true)
      (fun _ => nofun) fun found middle => ?_
    exact rest_map_more found es _ _ rest more (array_end_more middle rest more)
  | case2 tail start =>
    intro done
    have longer := listing_members_more tail.length more.length true none tail rest more es done
    rw [← List.length_append] at longer
    rw [listing, first_more input more tail _ start]
    exact longer
  | case3 => simp

theorem blanks_iff (bytes : Bytes) : skipBlank bytes = [] ↔ Blanks bytes := List.dropWhile_eq_nil_iff

theorem read_ok_iff (input : Bytes) (es : List Entry) :
    read input = .ok es ↔ ∃ rest, listing input = .ok (es, rest) ∧ Blanks rest := by
  rw [read, bind_ok_iff]
  constructor
  · rintro ⟨⟨found, rest⟩, parsed, finished⟩
    dsimp only at finished
    split at finished
    · rename_i ended
      obtain rfl := Except.ok.inj finished
      exact ⟨rest, parsed, (blanks_iff rest).mp ended⟩
    · contradiction
  · rintro ⟨rest, parsed, blank⟩
    refine ⟨(es, rest), parsed, ?_⟩
    dsimp only
    rw [(blanks_iff rest).mpr blank]
    rfl

theorem read_more_iff (input more : Bytes) (es others : List Entry) (done : read input = .ok es) :
    read (input ++ more) = .ok others ↔ Blanks more ∧ es = others := by
  obtain ⟨rest, parsed, blank⟩ := (read_ok_iff input es).mp done
  have longer := listing_more input es rest more parsed
  rw [read_ok_iff, longer]
  constructor
  · rintro ⟨left, same, blanks⟩
    obtain ⟨rfl, rfl⟩ := Prod.mk.inj (Except.ok.inj same)
    exact ⟨(List.forall_mem_append.mp blanks).2, rfl⟩
  · rintro ⟨blanks, rfl⟩
    exact ⟨rest ++ more, rfl, List.forall_mem_append.mpr ⟨blank, blanks⟩⟩

theorem parse_ok_iff (input : Bytes) (map : BlockMap) :
    parse input = .ok map ↔ ∃ es, read input = .ok es ∧ convert es = .ok map := by
  rw [parse]
  cases read input <;> simp

theorem cut_refused (text : Bytes) (map : BlockMap) (accepted : parse text = .ok map) :
    (∀ kept removed, text = kept ++ removed → (∃ b ∈ removed, isBlank b = false) →
      ∃ fault, parse kept = .error (.unreadable fault)) ∧
    ∀ blanks, Blanks blanks → parse (text ++ blanks) = .ok map := by
  obtain ⟨es, whole, converted⟩ := (parse_ok_iff text map).mp accepted
  constructor
  · rintro kept removed rfl ⟨b, missing, other⟩
    cases part : read kept with
    | error fault => exact ⟨fault, by rw [parse, part]⟩
    | ok fewer =>
      -- The whole would be a listing with the byte behind it.
      obtain ⟨blank, -⟩ := (read_more_iff kept removed fewer es part).mp whole
      rw [blank b missing] at other
      exact Bool.noConfusion other
  · intro blanks blank
    exact (parse_ok_iff _ map).mpr ⟨es, (read_more_iff text blanks es es whole).mpr ⟨blank, rfl⟩, converted⟩

def deepText : Bytes := ascii
  "\x7b\"note\":[[\"a\\u0062\"],-1.5e3],\"blocks\":[[16,\"0x20\"],\x7b\"end\":48,\"start\":32\x7d]\x7d \n"

-- Cuts in the escape, in the exponent, in the text of an address, between the blocks, in the last number and before the
-- last brace.
theorem cut_refused_deep :
    ∃ map, parse deepText = .ok map ∧ map.toList = [⟨16, 32, 0, 0⟩, ⟨32, 48, 0, 0⟩] ∧
      (∀ length ∈ [15, 26, 46, 50, 70, 73], closeBrace ∈ deepText.drop length ∧
        ∃ fault, parse (deepText.take length) = .error (.unreadable fault)) ∧
      parse (deepText ++ [0x20, 0x09, 0x0d, 0x0a]) = .ok map := by
  have shown : (parse deepText).toOption.map BlockMap.toList = some [⟨16, 32, 0, 0⟩, ⟨32, 48, 0, 0⟩] := by decide +kernel
  have missing : ∀ length ∈ [15, 26, 46, 50, 70, 73], closeBrace ∈ deepText.drop length := by decide +kernel
  cases accepted : parse deepText with
  | error fault =>
    rw [accepted] at shown
    exact nomatch shown
  | ok map =>
    rw [accepted] at shown
    obtain ⟨refused, unchanged⟩ := cut_refused deepText map accepted
    refine ⟨map, rfl, Option.some.inj shown, fun length listed => ?_, unchanged _ (by decide)⟩
    have brace := missing length listed
    exact ⟨brace, refused _ _ (List.take_append_drop length deepText).symm ⟨closeBrace, brace, rfl⟩⟩

end FunctionDiscovery.Listing
