import FunctionDiscovery.Text.Utf8

set_option autoImplicit false

namespace FunctionDiscovery.Text

inductive Control where
  | outside
  | escape
  | intermediate
  | parameters
  | command
  | device
  | deviceParameters
  | deviceIntermediate
  | string
deriving DecidableEq, Repr

namespace Control

def isString : Control → Bool
  | .command | .device | .deviceParameters | .deviceIntermediate | .string => true
  | .outside | .escape | .intermediate | .parameters => false

def afterEscape (c : Char) : Control :=
  if c = '[' then .parameters
  else if c = ']' then .command
  else if c = 'P' then .device
  else if c = 'X' ∨ c = '^' ∨ c = '_' then .string
  else if c < '0' then .intermediate
  else .outside

def next (place : Control) (c : Char) : Control :=
  match place with
  | .outside => .outside
  | .escape => afterEscape c
  | .intermediate => if c < '0' then .intermediate else .outside
  | .parameters => if c < '@' then .parameters else .outside
  | .command => .command
  | .device =>
    if c < '0' then .deviceIntermediate
    else if c < '@' then .deviceParameters
    else .string
  | .deviceParameters =>
    if c < '0' then .deviceIntermediate
    else if c < '<' then .deviceParameters
    else .string
  | .deviceIntermediate => if c < '0' then .deviceIntermediate else .string
  | .string => .string

-- The place after a character beyond ASCII. The terminator of a string is a single byte, which counts even as
-- a part of the character.
def nextWide (place : Control) (c : Char) : Control :=
  if place = .string ∧ 0x9c ∈ Utf8.encode c.toNat then .outside else place

end Control

def isLineSpace (c : Char) : Bool := c == '\t' || c == '\n' || c == '\x0c' || c == '\r'

/-- The visible part of a text that starts at a place. If `broken`, white space has broken into the sequence
there. A character beyond ASCII ends a broken sequence. -/
def plainFrom (place : Control) (broken : Bool) : List Char → List Char
  | [] => []
  | c :: rest =>
    if c = '\x1b' then plainFrom .escape false rest
    else if c = '\x18' ∨ c = '\x1a' then plainFrom .outside false rest
    else if place = .command ∧ c = '\x07' then plainFrom .outside false rest
    else if isLineSpace c ∧ ¬place.isString then c :: plainFrom place true rest
    else if c < ' ' ∨ c = '\x7f' then plainFrom place false rest
    else if place = .outside ∨ broken then
      c :: plainFrom (if '\x7f' < c then .outside else place) broken rest
    else if '\x7f' < c then plainFrom (place.nextWide c) false rest
    else plainFrom (place.next c) false rest

def plain (text : String) : String := String.ofList (plainFrom .outside false text.toList)

end FunctionDiscovery.Text
