import FunctionDiscovery.CommandLine.Run

set_option autoImplicit false

namespace FunctionDiscovery

def readFile (name : String) : IO (Except Files.Fault Bytes) := do
  try
    return .ok (← IO.FS.readBinFile name).toList
  catch
    | .inappropriateType .. => return .error .folder
    | _ => return .error .absent

def namedFiles (arguments : List String) : IO Files := do
  match CommandLine.parse arguments with
  | .error _ => return fun _ => .error .absent
  | .ok options =>
    let found ← (options.blocks :: options.image.toList).mapM fun name => do
      return (name, ← readFile name)
    return fun name => (found.lookup name).getD (.error .absent)

def processors : IO Nat := do
  try
    let lines ← IO.FS.lines "/proc/cpuinfo"
    return max (lines.toList.countP fun line => line.startsWith "processor") 1
  catch _ => return 1

end FunctionDiscovery

open FunctionDiscovery

def main (arguments : List String) : IO UInt32 := do
  let files ← namedFiles arguments
  let result := CommandLine.run (← processors) files arguments
  IO.print result.out
  if let some line := result.err then IO.eprintln line
  return result.exit
