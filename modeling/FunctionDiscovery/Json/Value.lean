import FunctionDiscovery.Json.Number

set_option autoImplicit false

namespace FunctionDiscovery.Json

inductive Atom where
  | null
  | boolean (value : Bool)
  | natural (value : Nat)
  | real
  | text (value : String)
deriving DecidableEq, Repr

-- Within a skipped value, the end of the text breaks a number like any other byte.
def number (care : Care) (input : Bytes) : Except Fault (Atom × Bytes) :=
  match care with
  | .skipped => (literal .malformed input).map fun (_, rest) => (.real, rest)
  | .kept _ =>
    match literal .endOfInput input with
    | .error fault => .error fault
    | .ok (l, rest) =>
      if isHuge l then .error .malformed
      else
        match l.natural? with
        | some n => .ok (.natural n, rest)
        | none => .ok (.real, rest)

def atom (care : Care) : Bytes → Except Fault (Atom × Bytes)
  | [] => .error .endOfInput
  | letterN :: rest => (expect (ascii "ull") rest).map fun rest => (.null, rest)
  | letterT :: rest => (expect (ascii "rue") rest).map fun rest => (.boolean true, rest)
  | letterF :: rest => (expect (ascii "alse") rest).map fun rest => (.boolean false, rest)
  | quote :: rest => (text care rest).map fun (text, rest) => (.text text, rest)
  | b :: rest =>
    if b = minus || isDigit b then number care (b :: rest) else .error .malformed

inductive Frame where
  | array
  | object
deriving DecidableEq, Repr

def Frame.close : Frame → UInt8
  | .array => closeBracket
  | .object => closeBrace

def label (care : Care) (frame : Frame) (input : Bytes) : Except Fault Bytes :=
  match frame with
  | .array => .ok input
  | .object =>
    match skipBlank input with
    | [] => .error .endOfInput
    | quote :: input =>
      match text care input with
      | .error fault => .error fault
      | .ok (_, input) =>
        match skipBlank input with
        | [] => .error .endOfInput
        | colon :: rest => .ok rest
        | _ => .error .malformed
    | _ => .error .malformed

def isTooDeep (care : Care) (frames : List Frame) : Bool :=
  match care with
  | .skipped => false
  | .kept depth => depthLimit ≤ depth + frames.length

inductive Place where
  | before
  | after
  | opened
deriving DecidableEq, Repr

/-- Walks on until every open frame is closed. No byte is looked at more than twice, which bounds the number
of steps. -/
def walk (care : Care) : (fuel : Nat) → Place → List Frame → Bytes → Except Fault Bytes
  | 0, _, _, _ => .error .endOfInput
  | _ + 1, .after, [], input => .ok input
  | fuel + 1, .after, frame :: frames, input =>
    match skipBlank input with
    | [] => .error .endOfInput
    | b :: rest =>
      if b = frame.close then walk care fuel .after frames rest
      else if b = comma then
        match label care frame rest with
        | .error fault => .error fault
        | .ok rest => walk care fuel .before (frame :: frames) rest
      else .error .malformed
  | _ + 1, .opened, [], input => .ok input
  | fuel + 1, .opened, frame :: frames, input =>
    match skipBlank input with
    | [] => .error .endOfInput
    | b :: rest =>
      if b = frame.close then walk care fuel .after frames rest
      else
        match label care frame (b :: rest) with
        | .error fault => .error fault
        | .ok rest => walk care fuel .before (frame :: frames) rest
  | fuel + 1, .before, frames, input =>
    match skipBlank input with
    | [] => .error .endOfInput
    | openBracket :: rest =>
      if isTooDeep care frames then .error .malformed
      else walk care fuel .opened (.array :: frames) rest
    | openBrace :: rest =>
      if isTooDeep care frames then .error .malformed
      else walk care fuel .opened (.object :: frames) rest
    | input =>
      match atom care input with
      | .error fault => .error fault
      | .ok (_, rest) => walk care fuel .after frames rest

def pass (care : Care) (input : Bytes) : Except Fault Bytes :=
  walk care (2 * input.length + 2) .before [] input

-- The fault of a value that has another form than the one asked for. Brackets show that at once, a plain
-- value only when it was read.
def refusal (input : Bytes) : Fault :=
  match skipBlank input with
  | openBracket :: _ => .mismatch
  | openBrace :: _ => .mismatch
  | input =>
    match atom (.kept 0) input with
    | .error fault => fault
    | .ok _ => .mismatch

def boolean (input : Bytes) : Except Fault (Bool × Bytes) :=
  match skipBlank input with
  | letterT :: rest => (expect (ascii "rue") rest).map fun rest => (true, rest)
  | letterF :: rest => (expect (ascii "alse") rest).map fun rest => (false, rest)
  | input => .error (refusal input)

def element? (first : Bool) (input : Bytes) : Except Fault (Bool × Bytes) :=
  match skipBlank input with
  | [] => .error .endOfInput
  | closeBracket :: rest => .ok (false, closeBracket :: rest)
  | b :: rest =>
    if first then .ok (true, b :: rest)
    else if b = comma then
      match skipBlank rest with
      | [] => .error .endOfInput
      | closeBracket :: _ => .error .malformed
      | rest => .ok (true, rest)
    else .error .malformed

def arrayEnd (input : Bytes) : Except Fault Bytes :=
  match skipBlank input with
  | [] => .error .endOfInput
  | closeBracket :: rest => .ok rest
  | _ => .error .malformed

def memberName? (first : Bool) (input : Bytes) : Except Fault (Option String × Bytes) :=
  match skipBlank input with
  | [] => .error .endOfInput
  | closeBrace :: rest => .ok (none, rest)
  | b :: rest =>
    if first then name (b :: rest)
    else if b = comma then
      match skipBlank rest with
      | [] => .error .endOfInput
      | rest => name rest
    else .error .malformed
where
  name : Bytes → Except Fault (Option String × Bytes)
    | quote :: rest => (text (.kept 0) rest).map fun (text, rest) => (some text, rest)
    | _ => .error .malformed

def separator (input : Bytes) : Except Fault Bytes :=
  match skipBlank input with
  | [] => .error .endOfInput
  | colon :: rest => .ok rest
  | _ => .error .malformed

end FunctionDiscovery.Json
