import FunctionDiscovery.Json.Lexeme

set_option autoImplicit false

namespace FunctionDiscovery.Json

def isDigit (b : UInt8) : Bool := 0x30 ≤ b && b ≤ 0x39

def digitValue (b : UInt8) : Nat := b.toNat - 0x30

structure Literal where
  negative : Bool
  whole : Bytes
  fraction : Option Bytes
  exponent : Option (Bool × Bytes)
deriving DecidableEq, Repr

-- At least one digit. `cut` is the fault where the text ends instead.
def digits (cut : Fault) (input : Bytes) : Except Fault (Bytes × Bytes) :=
  match input.takeWhile isDigit, input.dropWhile isDigit with
  | [], [] => .error cut
  | [], _ :: _ => .error .malformed
  | run, rest => .ok (run, rest)

def wholeDigits (cut : Fault) (input : Bytes) : Except Fault (Bytes × Bytes) := do
  let (run, rest) ← digits cut input
  match run with
  | zero :: _ :: _ => .error .malformed
  | _ => .ok (run, rest)

def fractionDigits (cut : Fault) : Bytes → Except Fault (Option Bytes × Bytes)
  | point :: input => do
    let (run, rest) ← digits cut input
    .ok (some run, rest)
  | input => .ok (none, input)

def exponentDigits (cut : Fault) : Bytes → Except Fault (Option (Bool × Bytes) × Bytes)
  | letterE :: input => signed input
  | capitalE :: input => signed input
  | input => .ok (none, input)
where
  signed (input : Bytes) : Except Fault (Option (Bool × Bytes) × Bytes) := do
    let (below, input) := match input with
      | minus :: input => (true, input)
      | plus :: input => (false, input)
      | input => (false, input)
    let (run, rest) ← digits cut input
    .ok (some (below, run), rest)

def literal (cut : Fault) (input : Bytes) : Except Fault (Literal × Bytes) := do
  let (negative, input) := match input with
    | minus :: input => (true, input)
    | input => (false, input)
  let (whole, input) ← wholeDigits cut input
  let (fraction, input) ← fractionDigits cut input
  let (exponent, rest) ← exponentDigits cut input
  .ok (⟨negative, whole, fraction, exponent⟩, rest)

def value (run : Bytes) : Nat := run.foldl (fun n b => n * 10 + digitValue b) 0

def absorb : Nat → Bytes → Nat × Bytes
  | n, [] => (n, [])
  | n, b :: run =>
    if n * 10 + digitValue b < UInt64.size then absorb (n * 10 + digitValue b) run else (n, b :: run)

/-- The leading digits of a number, and the power of ten that they are to be scaled by. Digits left over
before the point count as zeros, those after it as absent. -/
def scaled (l : Literal) : Nat × Int :=
  let (n, dropped) := absorb 0 l.whole
  let run := l.fraction.getD []
  let (n, cut) := absorb n run
  (n, (dropped.length : Int) - ((run.length - cut.length : Nat) : Int))

def roundDouble (n : Nat) : Nat :=
  let unit := Nat.pow 2 (n.log2 - 52)
  let low := n / unit
  let rest := n % unit
  if 2 * rest < unit then low * unit
  else if 2 * rest = unit then (low + low % 2) * unit
  else (low + 1) * unit

def exponentLimit : Nat := Nat.pow 2 31

def largestPower : Nat := 308

def isHuge (l : Literal) : Bool :=
  let (n, scale) := scaled l
  let exceeds (power : Int) : Bool :=
    if power < 0 ∨ n = 0 then false
    else if (largestPower : Int) < power then true
    else Nat.pow 2 1024 ≤ roundDouble (roundDouble n * roundDouble (Nat.pow 10 power.toNat))
  match l.exponent with
  | none => exceeds scale
  | some (true, run) =>
    if value run < exponentLimit then exceeds (scale - (value run : Int)) else false
  | some (false, run) =>
    if value run < exponentLimit then exceeds (scale + (value run : Int)) else n ≠ 0

def Literal.natural? (l : Literal) : Option Nat :=
  if l.negative || l.fraction.isSome || l.exponent.isSome then none else some (value l.whole)

end FunctionDiscovery.Json
