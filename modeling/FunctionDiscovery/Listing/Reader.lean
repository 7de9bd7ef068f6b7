import FunctionDiscovery.Listing

set_option autoImplicit false

namespace FunctionDiscovery.Listing

open FunctionDiscovery.Json

def addressDepth : Nat := 3

def written (input : Bytes) : Except Fault (Written × Bytes) :=
  match skipBlank input with
  | openBracket :: rest => walked (openBracket :: rest)
  | openBrace :: rest => walked (openBrace :: rest)
  | input =>
    match atom (.kept addressDepth) input with
    | .error fault => .error fault
    | .ok (.natural n, rest) =>
      if n < UInt64.size then .ok (.number (UInt64.ofNat n), rest) else .error .mismatch
    | .ok (.text text, rest) => .ok (.text text, rest)
    | .ok _ => .error .mismatch
where
  walked (input : Bytes) : Except Fault (Written × Bytes) :=
    match pass (.kept addressDepth) input with
    | .error fault => .error fault
    | .ok _ => .error .mismatch

def target (input : Bytes) : Except Fault (Option Written × Bytes) :=
  match skipBlank input with
  | letterN :: rest => (expect (ascii "ull") rest).map fun rest => (none, rest)
  | input => (written input).map fun (target, rest) => (some target, rest)

structure Draft where
  start : Option Written := none
  stop : Option Written := none
  target : Option (Option Written) := none
  call : Option Bool := none
  indirect : Option Bool := none

def Draft.entry? (draft : Draft) : Option Entry := do
  let start ← draft.start
  let stop ← draft.stop
  return ⟨start, stop, draft.target.getD none, draft.call.getD false, draft.indirect.getD false⟩

def fresh {α : Type} (given : Option α) (read : Bytes → Except Fault (α × Bytes))
    (input : Bytes) : Except Fault (α × Bytes) :=
  if given.isSome then .error .mismatch
  else
    match separator input with
    | .error fault => .error fault
    | .ok input => read input

def skipMember (input : Bytes) : Except Fault Bytes :=
  match separator input with
  | .error fault => .error fault
  | .ok input => pass .skipped input

def Draft.member (draft : Draft) (name : String) (input : Bytes) : Except Fault (Draft × Bytes) :=
  match name with
  | "start" => (fresh draft.start written input).map fun (start, rest) =>
    ({ draft with start := some start }, rest)
  | "end" => (fresh draft.stop written input).map fun (stop, rest) =>
    ({ draft with stop := some stop }, rest)
  | "target" => (fresh draft.target Listing.target input).map fun (target, rest) =>
    ({ draft with target := some target }, rest)
  | "call" => (fresh draft.call boolean input).map fun (call, rest) =>
    ({ draft with call := some call }, rest)
  | "indirect" => (fresh draft.indirect boolean input).map fun (indirect, rest) =>
    ({ draft with indirect := some indirect }, rest)
  | _ => (skipMember input).map fun rest => (draft, rest)

def blockMembers : (fuel : Nat) → (first : Bool) → Draft → Bytes → Except Fault (Entry × Bytes)
  | 0, _, _, _ => .error .endOfInput
  | fuel + 1, first, draft, input =>
    match memberName? first input with
    | .error fault => .error fault
    | .ok (none, rest) =>
      match draft.entry? with
      | none => .error .mismatch
      | some entry => .ok (entry, rest)
    | .ok (some name, rest) =>
      match draft.member name rest with
      | .error fault => .error fault
      | .ok (draft, rest) => blockMembers fuel false draft rest

def required {α : Type} (first : Bool) (read : Bytes → Except Fault (α × Bytes)) (input : Bytes) :
    Except Fault (α × Bytes) := do
  match ← element? first input with
  | (false, _) => .error .mismatch
  | (true, input) => read input

def optional {α : Type} (absent : α) (read : Bytes → Except Fault (α × Bytes)) (input : Bytes) :
    Except Fault (α × Bytes) := do
  match ← element? false input with
  | (false, input) => .ok (absent, input)
  | (true, input) => read input

-- An object may also be written as the array of its members' values.
def blockElements (input : Bytes) : Except Fault (Entry × Bytes) := do
  let (start, input) ← required true written input
  let (stop, input) ← required false written input
  let (target, input) ← optional none target input
  let (call, input) ← optional false boolean input
  let (indirect, input) ← optional false boolean input
  let rest ← arrayEnd input
  return (⟨start, stop, target, call, indirect⟩, rest)

def entry (input : Bytes) : Except Fault (Entry × Bytes) :=
  match skipBlank input with
  | openBracket :: rest => blockElements rest
  | openBrace :: rest => blockMembers rest.length true {} rest
  | input => .error (refusal input)

def entriesFrom : (fuel : Nat) → (first : Bool) → Bytes → Except Fault (List Entry × Bytes)
  | 0, _, _ => .error .endOfInput
  | fuel + 1, first, input =>
    match element? first input with
    | .error fault => .error fault
    | .ok (false, input) => .ok ([], input.drop 1)
    | .ok (true, input) =>
      match entry input with
      | .error fault => .error fault
      | .ok (entry, rest) =>
        (entriesFrom fuel false rest).map fun (entries, rest) => (entry :: entries, rest)

def entries (input : Bytes) : Except Fault (List Entry × Bytes) :=
  match skipBlank input with
  | openBracket :: rest => entriesFrom rest.length true rest
  | input => .error (refusal input)

def listingMembers : (fuel : Nat) → (first : Bool) → Option (List Entry) → Bytes →
    Except Fault (List Entry × Bytes)
  | 0, _, _, _ => .error .endOfInput
  | fuel + 1, first, found, input =>
    match memberName? first input with
    | .error fault => .error fault
    | .ok (none, rest) =>
      match found with
      | none => .error .mismatch
      | some entries => .ok (entries, rest)
    | .ok (some "blocks", rest) =>
      match fresh found entries rest with
      | .error fault => .error fault
      | .ok (entries, rest) => listingMembers fuel false (some entries) rest
    | .ok (some _, rest) =>
      match skipMember rest with
      | .error fault => .error fault
      | .ok rest => listingMembers fuel false found rest

def listing (input : Bytes) : Except Fault (List Entry × Bytes) :=
  match skipBlank input with
  | openBracket :: rest => do
    let (entries, rest) ← required true entries rest
    return (entries, ← arrayEnd rest)
  | openBrace :: rest => listingMembers rest.length true none rest
  | input => .error (refusal input)

def read (input : Bytes) : Except Fault (List Entry) := do
  let (entries, rest) ← listing input
  match skipBlank rest with
  | [] => return entries
  | _ => .error .malformed

end FunctionDiscovery.Listing
