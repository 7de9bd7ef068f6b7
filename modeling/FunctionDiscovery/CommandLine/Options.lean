import FunctionDiscovery.Address
import FunctionDiscovery.Memory

set_option autoImplicit false

namespace FunctionDiscovery.CommandLine

inductive OutputFormat where
  | text
  | json
deriving DecidableEq, Repr

inductive HelpForm where
  | summary
  | full
deriving DecidableEq, Repr

inductive Setting where
  | blocks
  | image
  | moduleBase
  | start
  | stop
  | threads
  | pointerWidth
  | format
deriving DecidableEq, Repr

namespace Setting

def all : List Setting :=
  [.blocks, .image, .moduleBase, .start, .stop, .threads, .pointerWidth, .format]

def name : Setting → String
  | .blocks => "blocks"
  | .image => "image"
  | .moduleBase => "module-base"
  | .start => "start"
  | .stop => "end"
  | .threads => "threads"
  | .pointerWidth => "pointer-width"
  | .format => "format"

def letter? : Setting → Option Char
  | .blocks => some 'b'
  | .image => some 'i'
  | .threads => some 'j'
  | .format => some 'o'
  | _ => none

def placeholder : Setting → String
  | .blocks => "BLOCKS"
  | .image => "IMAGE"
  | .moduleBase => "MODULE_BASE"
  | .start => "START"
  | .stop => "END"
  | .threads => "THREADS"
  | .pointerWidth => "POINTER_WIDTH"
  | .format => "FORMAT"

def label (setting : Setting) : String := s!"--{setting.name} <{setting.placeholder}>"

def named? (name : String) : Option Setting := all.find? fun setting => setting.name == name

def lettered? (letter : Char) : Option Setting :=
  all.find? fun setting => setting.letter? == some letter

end Setting

inductive Switch where
  | progress
  | verbose
  | help
  | version
deriving DecidableEq, Repr

namespace Switch

def all : List Switch := [.progress, .verbose, .help, .version]

def name : Switch → String
  | .progress => "progress"
  | .verbose => "verbose"
  | .help => "help"
  | .version => "version"

def letter? : Switch → Option Char
  | .progress => none
  | .verbose => some 'v'
  | .help => some 'h'
  | .version => some 'V'

def label (switch : Switch) : String := "--" ++ switch.name

def named? (name : String) : Option Switch := all.find? fun switch => switch.name == name

def lettered? (letter : Char) : Option Switch :=
  all.find? fun switch => switch.letter? == some letter

end Switch

structure Options where
  blocks : String
  image : Option String := none
  moduleBase : Option Address := none
  start : Option Address := none
  stop : Option Address := none
  threads : Option Nat := none
  pointerWidth : Option PointerWidth := none
  format : OutputFormat := .text
  progress : Bool := false
  verbose : Bool := false
deriving DecidableEq, Repr

end FunctionDiscovery.CommandLine
