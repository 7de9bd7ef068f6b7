import FunctionDiscovery.Text.Extending
import FunctionDiscovery.Text.Numeral
import FunctionDiscovery.Text.Unseen

set_option autoImplicit false

namespace FunctionDiscovery.Text

def codePoint (c : Char) : String :=
  "\\u\x7b" ++ Numeral.render 16 c.toNat ++ "\x7d"

def quotedChar (c : Char) : String :=
  match c with
  | '\x00' => "\\0"
  | '\t' => "\\t"
  | '\n' => "\\n"
  | '\r' => "\\r"
  | '\\' => "\\\\"
  | '"' => "\\\""
  | c => if isExtending c || isUnseen c then codePoint c else c.toString

def quoted (text : String) : String :=
  "\"" ++ String.join (text.toList.map quotedChar) ++ "\""

end FunctionDiscovery.Text
