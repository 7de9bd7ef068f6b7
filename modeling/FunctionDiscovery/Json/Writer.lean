import FunctionDiscovery.Text.Numeral

set_option autoImplicit false

namespace FunctionDiscovery.Json

inductive Document where
  | null
  | boolean (value : Bool)
  | number (value : Nat)
  | text (value : String)
  | array (elements : List Document)
  | object (members : List (String × Document))

def escaped (c : Char) : String :=
  match c with
  | '"' => "\\\""
  | '\\' => "\\\\"
  | '\n' => "\\n"
  | '\r' => "\\r"
  | '\t' => "\\t"
  | '\x08' => "\\b"
  | '\x0c' => "\\f"
  | c =>
    if c.toNat < 0x10 then "\\u000" ++ Numeral.render 16 c.toNat
    else if c.toNat < 0x20 then "\\u00" ++ Numeral.render 16 c.toNat
    else c.toString

def quoted (text : String) : String :=
  "\"" ++ String.join (text.toList.map escaped) ++ "\""

namespace Document

mutual

def compact : Document → String
  | .null => "null"
  | .boolean value => if value then "true" else "false"
  | .number value => Numeral.decimal value
  | .text value => quoted value
  | .array elements => "[" ++ ",".intercalate (compactElements elements) ++ "]"
  | .object members => "\x7b" ++ ",".intercalate (compactMembers members) ++ "\x7d"

def compactElements : List Document → List String
  | [] => []
  | d :: rest => d.compact :: compactElements rest

def compactMembers : List (String × Document) → List String
  | [] => []
  | (name, d) :: rest => (quoted name ++ ":" ++ d.compact) :: compactMembers rest

end

def spread (indent opening closing : String) (items : List String) : String :=
  if items.isEmpty then opening ++ closing
  else
    opening ++ "\n" ++ ",\n".intercalate (items.map fun item => indent ++ "  " ++ item) ++ "\n" ++
      indent ++ closing

mutual

def pretty (indent : String) : Document → String
  | .null => "null"
  | .boolean value => if value then "true" else "false"
  | .number value => Numeral.decimal value
  | .text value => quoted value
  | .array elements => spread indent "[" "]" (prettyElements (indent ++ "  ") elements)
  | .object members => spread indent "\x7b" "\x7d" (prettyMembers (indent ++ "  ") members)

def prettyElements (indent : String) : List Document → List String
  | [] => []
  | d :: rest => d.pretty indent :: prettyElements indent rest

def prettyMembers (indent : String) : List (String × Document) → List String
  | [] => []
  | (name, d) :: rest => (quoted name ++ ": " ++ d.pretty indent) :: prettyMembers indent rest

end

end Document

end FunctionDiscovery.Json
