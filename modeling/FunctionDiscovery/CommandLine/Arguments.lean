import FunctionDiscovery.CommandLine.Options
import FunctionDiscovery.Text.Plain

set_option autoImplicit false

namespace FunctionDiscovery.CommandLine

inductive UsageFault where
  | missingBlocks
  | missingValue (setting : Setting)
  | unexpected (argument : String)
  | repeated (label : String)
  | invalidValue (setting : Setting) (value : String) (reason : Option String)
  | surplusValue (switch : Switch) (value : String)
deriving DecidableEq, Repr

-- What was typed is repeated without control sequences.
def UsageFault.message : UsageFault → String
  | .missingBlocks => "the following required arguments were not provided:"
  | .missingValue setting => s!"a value is required for '{setting.label}' but none was supplied"
  | .unexpected argument => s!"unexpected argument '{Text.plain argument}' found"
  | .repeated label => s!"the argument '{label}' cannot be used multiple times"
  | .invalidValue setting value none =>
    s!"invalid value '{Text.plain value}' for '{setting.label}'"
  | .invalidValue setting value (some reason) =>
    s!"invalid value '{Text.plain value}' for '{setting.label}': {reason}"
  | .surplusValue switch value =>
    s!"unexpected value '{Text.plain value}' for '{switch.label}' found; no more were expected"

inductive Halt where
  | fault (fault : UsageFault)
  | help (form : HelpForm)
  | version
deriving DecidableEq, Repr

structure Draft where
  blocks : Option String := none
  image : Option String := none
  moduleBase : Option Address := none
  start : Option Address := none
  stop : Option Address := none
  threads : Option Nat := none
  pointerWidth : Option PointerWidth := none
  format : Option OutputFormat := none
  progress : Bool := false
  verbose : Bool := false
deriving DecidableEq, Repr, Inhabited

namespace Draft

def isGiven (draft : Draft) : Setting → Bool
  | .blocks => draft.blocks.isSome
  | .image => draft.image.isSome
  | .moduleBase => draft.moduleBase.isSome
  | .start => draft.start.isSome
  | .stop => draft.stop.isSome
  | .threads => draft.threads.isSome
  | .pointerWidth => draft.pointerWidth.isSome
  | .format => draft.format.isSome

def path (setting : Setting) (value : String) : Except UsageFault String :=
  if value.isEmpty then .error (.missingValue setting) else .ok value

def address (setting : Setting) (value : String) : Except UsageFault Address :=
  match Address.parse value with
  | .ok a => .ok a
  | .error fault => .error (.invalidValue setting value fault.summary)

def count (setting : Setting) (value : String) : Except UsageFault Nat :=
  match Numeral.parse 10 UInt64.size value.toList with
  | .ok n => .ok n
  | .error fault => .error (.invalidValue setting value fault.message)

def choice {α : Type} (words : List (String × α)) (setting : Setting) (value : String) :
    Except UsageFault α :=
  match words.lookup value with
  | some choice => .ok choice
  | none =>
    if value.isEmpty then .error (.missingValue setting)
    else .error (.invalidValue setting value none)

def width : Setting → String → Except UsageFault PointerWidth :=
  choice [("bits32", .bits32), ("bits64", .bits64)]

def outputFormat : Setting → String → Except UsageFault OutputFormat :=
  choice [("text", .text), ("json", .json)]

def set (draft : Draft) (setting : Setting) (value : String) : Except UsageFault Draft :=
  match setting with
  | .blocks => (path setting value).map fun v => { draft with blocks := some v }
  | .image => (path setting value).map fun v => { draft with image := some v }
  | .moduleBase => (address setting value).map fun v => { draft with moduleBase := some v }
  | .start => (address setting value).map fun v => { draft with start := some v }
  | .stop => (address setting value).map fun v => { draft with stop := some v }
  | .threads => (count setting value).map fun v => { draft with threads := some v }
  | .pointerWidth => (width setting value).map fun v => { draft with pointerWidth := some v }
  | .format => (outputFormat setting value).map fun v => { draft with format := some v }

def accept (draft : Draft) (setting : Setting) (value : Option String) : Except Halt Draft :=
  match value with
  | none => .error (.fault (.missingValue setting))
  | some value =>
    if draft.isGiven setting then .error (.fault (.repeated setting.label))
    else
      match draft.set setting value with
      | .error fault => .error (.fault fault)
      | .ok draft => .ok draft

def turnOn (draft : Draft) (switch : Switch) (form : HelpForm) : Except Halt Draft :=
  match switch with
  | .progress =>
    if draft.progress then .error (.fault (.repeated switch.label))
    else .ok { draft with progress := true }
  | .verbose =>
    if draft.verbose then .error (.fault (.repeated switch.label))
    else .ok { draft with verbose := true }
  | .help => .error (.help form)
  | .version => .error .version

def options (draft : Draft) : Except Halt Options :=
  match draft.blocks with
  | none => .error (.fault .missingBlocks)
  | some blocks =>
    .ok {
      blocks
      image := draft.image
      moduleBase := draft.moduleBase
      start := draft.start
      stop := draft.stop
      threads := draft.threads
      pointerWidth := draft.pointerWidth
      format := draft.format.getD .text
      progress := draft.progress
      verbose := draft.verbose }

end Draft

-- A value that is attached to its option is taken at once. One that follows as an argument of its own waits
-- until the next known option or the end, so that an argument nobody asked for is reported before it.
structure Waiting where
  setting : Setting
  value : Option String
deriving DecidableEq, Repr

structure Reading where
  draft : Draft := {}
  waiting : Option Waiting := none
deriving DecidableEq, Repr, Inhabited

namespace Reading

def settle (reading : Reading) : Except Halt Draft :=
  match reading.waiting with
  | none => .ok reading.draft
  | some waiting => reading.draft.accept waiting.setting waiting.value

def setting (reading : Reading) (setting : Setting) (value : Option String) :
    Except Halt Reading := do
  let draft ← reading.settle
  match value with
  | none => return ⟨draft, some ⟨setting, none⟩⟩
  | some value => return ⟨← draft.accept setting (some value), none⟩

def switch (reading : Reading) (switch : Switch) (form : HelpForm) : Except Halt Reading := do
  return ⟨← (← reading.settle).turnOn switch form, none⟩

def refuse {α : Type} (argument : String) : Except Halt α :=
  .error (.fault (.unexpected argument))

def long (reading : Reading) (argument : List Char) : Except Halt Reading :=
  let name := String.ofList (argument.takeWhile (· ≠ '='))
  let value := match argument.dropWhile (· ≠ '=') with
    | _ :: value => some (String.ofList value)
    | [] => none
  match Setting.named? name, Switch.named? name with
  | some setting, _ => reading.setting setting value
  | none, some switch =>
    match value with
    | none => reading.switch switch .full
    | some value => .error (.fault (.surplusValue switch value))
  | none, none => refuse ("--" ++ name)

-- The first setting among the letters takes the rest as its value, an equals sign before it aside.
def short (reading : Reading) : List Char → Except Halt Reading
  | [] => .ok reading
  | letter :: rest =>
    match Setting.lettered? letter, Switch.lettered? letter with
    | some setting, _ =>
      match rest with
      | [] => reading.setting setting none
      | '=' :: value => reading.setting setting (some (String.ofList value))
      | value => reading.setting setting (some (String.ofList value))
    | none, some switch =>
      match reading.switch switch .summary with
      | .error halt => .error halt
      | .ok reading => reading.short rest
    | none, none => refuse (String.ofList ['-', letter])

def plain (reading : Reading) (argument : String) : Except Halt Reading :=
  match reading.waiting with
  | some ⟨setting, none⟩ => .ok { reading with waiting := some ⟨setting, some argument⟩ }
  | _ => refuse argument

def argument (reading : Reading) (argument : String) : Except Halt Reading :=
  match argument.toList with
  | '-' :: '-' :: rest => reading.long rest
  | ['-'] => reading.plain argument
  | '-' :: letters => reading.short letters
  | _ => reading.plain argument

def arguments (reading : Reading) : List String → Except Halt Reading
  | [] => .ok reading
  | ["--"] => .ok reading
  | "--" :: next :: _ => refuse next
  | next :: rest =>
    match reading.argument next with
    | .error halt => .error halt
    | .ok reading => reading.arguments rest

end Reading

def parse (arguments : List String) : Except Halt Options := do
  let reading ← ({} : Reading).arguments arguments
  (← reading.settle).options

end FunctionDiscovery.CommandLine
