import FunctionDiscovery.Files
import FunctionDiscovery.Listing.Reader

set_option autoImplicit false

namespace FunctionDiscovery

namespace Listing

inductive Fault where
  | unreadable (fault : Json.Fault)
  | address (index : Nat) (fault : Address.Fault)
  | order (fault : BlockMap.Fault)
deriving DecidableEq, Repr

def Fault.message : Fault → String
  | .unreadable fault => fault.message
  | .address index fault => s!"Block {Numeral.decimal index}: {fault.message}"
  | .order fault => fault.message

def blocksFrom : Nat → List Entry → Except Fault (List Block)
  | _, [] => .ok []
  | index, entry :: rest =>
    match entry.block with
    | .error fault => .error (.address index fault)
    | .ok block => (blocksFrom (index + 1) rest).map (block :: ·)

-- Every address is interpreted before any two blocks are compared.
def convert (entries : List Entry) : Except Fault BlockMap :=
  match blocksFrom 0 entries with
  | .error fault => .error fault
  | .ok blocks =>
    match BlockMap.ofList blocks with
    | .error fault => .error (.order fault)
    | .ok map => .ok map

def parse (input : Bytes) : Except Fault BlockMap :=
  match read input with
  | .error fault => .error (.unreadable fault)
  | .ok entries => convert entries

inductive LoadFault where
  | file (name : String) (fault : Files.Fault)
  | content (name : String) (fault : Fault)
deriving DecidableEq, Repr

def LoadFault.summary : LoadFault → String
  | .file name _ => "Failed to read " ++ name
  | .content name _ => "Failed to parse " ++ name

def LoadFault.cause : LoadFault → String
  | .file _ fault => fault.message
  | .content _ fault => fault.message

def LoadFault.message (fault : LoadFault) : String :=
  fault.summary ++ ": " ++ fault.cause

def load (files : Files) (name : String) : Except LoadFault BlockMap :=
  match files name with
  | .error fault => .error (.file name fault)
  | .ok input =>
    match parse input with
    | .error fault => .error (.content name fault)
    | .ok map => .ok map

end Listing

end FunctionDiscovery
