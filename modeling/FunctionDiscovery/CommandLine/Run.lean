import FunctionDiscovery.CommandLine.Arguments
import FunctionDiscovery.CommandLine.Help
import FunctionDiscovery.CommandLine.Output
import FunctionDiscovery.Image.Layout

set_option autoImplicit false

namespace FunctionDiscovery.CommandLine

inductive Fault where
  | listing (fault : Listing.LoadFault)
  | noBlocks (name : String)
  | emptyRange (range : AddressRange)
  | image (fault : Image.Fault)
deriving DecidableEq, Repr

def Fault.summary : Fault → String
  | .listing fault => fault.summary
  | .noBlocks name => name ++ " contains no blocks"
  | .emptyRange range => s!"Empty analysis range {range.start.hex}..{range.stop.hex}"
  | .image fault => fault.summary

-- The image, laid out at its base, stands for the memory of the process.
structure Target where
  snapshot : Snapshot := {}
  modules : ModuleMap := {}
  kind : Option Image.Kind := none

def target (files : Files) (options : Options) : Except Image.Fault Target :=
  match options.image with
  | none => .ok {}
  | some name =>
    match Image.ofFile name (files name) with
    | .error fault => .error fault
    | .ok image =>
      let base := options.moduleBase.getD image.base
      .ok {
        snapshot := image.layout base
        modules := ModuleMap.insert {} ⟨base, image.sizeOfImage.toUInt64, name⟩
        kind := some image.kind }

def analyse (processors : Nat) (files : Files) (options : Options) : Except Fault Outcome :=
  match Listing.load files options.blocks with
  | .error fault => .error (.listing fault)
  | .ok blocks =>
    match blocks.bounds? with
    | none => .error (.noBlocks options.blocks)
    | some span =>
      let bounds : AddressRange := ⟨options.start.getD span.start, options.stop.getD span.stop⟩
      if bounds.stop ≤ bounds.start then .error (.emptyRange bounds)
      else
        match target files options with
        | .error fault => .error (.image fault)
        | .ok target =>
          let width :=
            (options.pointerWidth.or (target.kind.map Image.Kind.pointerWidth)).getD default
          let workers := Discovery.workerCount processors options.threads
          let (discovery, state) := Discovery.prepare files target.modules.resolver
            target.snapshot.memory .never bounds workers width ()
          .ok (discovery.run .never blocks {} state).1

structure Result where
  exit : UInt32
  out : String := ""
  err : Option String := none
deriving DecidableEq, Repr

def versionText : String := "fnscan 0.1.0\n"

def Halt.result : Halt → Result
  | .fault usage => { exit := 2, err := some ("error: " ++ usage.message) }
  | .help form => { exit := 0, out := helpText form }
  | .version => { exit := 0, out := versionText }

def execute (processors : Nat) (files : Files) (options : Options) : Result :=
  match analyse processors files options with
  | .error fault => { exit := 1, err := some ("Error: " ++ fault.summary) }
  | .ok outcome => { exit := 0, out := render options.format outcome.table outcome.report }

def run (processors : Nat) (files : Files) (arguments : List String) : Result :=
  match parse arguments with
  | .error halt => halt.result
  | .ok options => execute processors files options

end FunctionDiscovery.CommandLine
