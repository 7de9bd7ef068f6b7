import FunctionDiscovery.CommandLine.Options

set_option autoImplicit false

namespace FunctionDiscovery.CommandLine

structure HelpEntry where
  option : String
  about : String
  standard : Option String := none
  words : List (String × Option String) := []
deriving DecidableEq, Repr

def optionText (letter : Option Char) (label : String) : String :=
  match letter with
  | some letter => s!"-{letter}, {label}"
  | none => "    " ++ label

namespace Setting

def about : Setting → String
  | .blocks => "JSON listing of the basic blocks to analyse"
  | .image => "PE image the blocks belong to; enables the exception directory prepass"
  | .moduleBase => "Address the image is loaded at (defaults to its preferred base)"
  | .start => "Start of the analysis range (defaults to the first block)"
  | .stop => "End of the analysis range, exclusive (defaults to the last block's end)"
  | .threads => "Number of shards / worker threads"
  | .pointerWidth => "Pointer width used for indirect calls (defaults to the image's)"
  | .format => "Output format"

def helpEntry (setting : Setting) : HelpEntry :=
  let entry : HelpEntry := { option := optionText setting.letter? setting.label, about := setting.about }
  match setting with
  | .pointerWidth => { entry with words := [("bits32", none), ("bits64", none)] }
  | .format =>
    { entry with
      standard := some "text"
      words := [("text", some "Plain text output"), ("json", some "JSON output")] }
  | _ => entry

end Setting

def Switch.about (form : HelpForm) : Switch → String
  | .progress => "Show a progress bar while shards run"
  | .verbose => "Log at debug level unless RUST_LOG says otherwise"
  | .help =>
    match form with
    | .summary => "Print help (see more with '--help')"
    | .full => "Print help (see a summary with '-h')"
  | .version => "Print version"

def Switch.helpEntry (form : HelpForm) (switch : Switch) : HelpEntry :=
  { option := optionText switch.letter? switch.label, about := switch.about form }

namespace HelpEntry

def isExplained (entry : HelpEntry) : Bool := entry.words.any fun word => word.2.isSome

-- Words that are explained stand in a list of their own in the full form, and among the notes otherwise.
def notes (entry : HelpEntry) (form : HelpForm) : List String :=
  let standard := entry.standard.toList.map fun word => s!"[default: {word}]"
  let words := String.intercalate ", " (entry.words.map Prod.fst)
  if entry.words.isEmpty || (form = .full && entry.isExplained) then standard
  else standard ++ [s!"[possible values: {words}]"]

def summary (width : Nat) (entry : HelpEntry) : String :=
  let gap := String.ofList (List.replicate (width - entry.option.length) ' ')
  s!"  {entry.option}{gap}  " ++ String.intercalate " " (entry.about :: entry.notes .summary)

def explanation (entry : HelpEntry) : List String :=
  entry.words.map fun word =>
    match word.2 with
    | some about => s!"- {word.1}: {about}"
    | none => "- " ++ word.1

def full (entry : HelpEntry) : List String :=
  let margin := "          "
  let notes := match entry.notes .full with
    | [] => []
    | notes => "" :: notes
  let explained :=
    if entry.isExplained then "" :: ("Possible values:" :: entry.explanation).map (margin ++ ·) else []
  ("  " ++ entry.option) :: (entry.about :: notes).map (margin ++ ·) ++ explained

end HelpEntry

def helpEntries (form : HelpForm) : List HelpEntry :=
  Setting.all.map Setting.helpEntry ++ Switch.all.map (Switch.helpEntry form)

def helpText (form : HelpForm) : String :=
  let entries := helpEntries form
  let options := match form with
    | .summary =>
      let width := (entries.map fun entry => entry.option.length).foldl max 0
      entries.map (HelpEntry.summary width)
    | .full => [""].intercalate (entries.map HelpEntry.full)
  let opening := ["Recover function boundaries from a basic block listing", "",
    "Usage: fnscan [OPTIONS] --blocks <BLOCKS>", "", "Options:"]
  String.join ((opening ++ options).map (· ++ "\n"))

end FunctionDiscovery.CommandLine
