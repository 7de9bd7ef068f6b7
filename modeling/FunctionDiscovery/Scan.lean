import FunctionDiscovery.Candidate
import FunctionDiscovery.Memory
import FunctionDiscovery.RuntimeFunction
import FunctionDiscovery.Stats
import FunctionDiscovery.Watch

set_option autoImplicit false

namespace FunctionDiscovery

structure Scope where
  blocks : BlockMap
  bounds : AddressRange
  base : Option Address
  records : List RuntimeFunction
  memory : Memory
  width : PointerWidth

inductive Edge where
  | none
  | unreadablePointer
  | unreadableTarget
  | outOfBounds
  | enters (destination : Address)
deriving DecidableEq, Repr

def Edge.stats : Edge → Stats
  | .none => {}
  | .unreadablePointer => { callEdges := 1, unreadablePointers := 1 }
  | .unreadableTarget => { callEdges := 1, unreadableTargets := 1 }
  | .outOfBounds => { callEdges := 1, outOfBounds := 1 }
  | .enters _ => { callEdges := 1 }

def Edge.candidates : Edge → List Candidate
  | .enters destination => [.entryPoint destination]
  | _ => []

namespace Scope

def arrival (scope : Scope) (destination : Address) : Edge :=
  if scope.bounds.contains destination then .enters destination else .outOfBounds

def edge (scope : Scope) (block : Block) : Edge :=
  if !block.isCall then .none
  else if !block.isIndirect then scope.arrival block.target
  else
    match scope.memory.readPointer block.target scope.width with
    | .error _ => .unreadablePointer
    | .ok destination =>
      if scope.memory.isReadable destination then scope.arrival destination
      else .unreadableTarget

def asked (scope : Scope) (block : Block) : List Address :=
  if block.isCall && block.isIndirect then
    match scope.memory.readPointer block.target scope.width with
    | .error _ => [block.target]
    | .ok destination => [block.target, destination]
  else []

def limits? (scope : Scope) (shard : IndexRange) : Option AddressRange := do
  let first ← scope.blocks.blocks[shard.first]?
  let last ← scope.blocks.blocks[shard.stop - 1]?
  return ⟨first.start, last.stop⟩

def listed (scope : Scope) (shard : IndexRange) : List AddressRange :=
  match scope.base, scope.limits? shard with
  | some base, some limits =>
    (scope.records.map (·.range base)).filter fun range => limits.contains range.start
  | _, _ => []

end Scope

-- What a scan found. The claims take effect only when all scans are done.
structure Scan where
  candidates : List Candidate := []
  claims : List IndexRange := []
  stats : Stats := {}
  cancelled : Bool := false
deriving DecidableEq, Repr, Inhabited

namespace Scan

variable {σ : Type}

def follow (scope : Scope) (watch : Watch σ) : List Block → σ → List Edge × Bool × σ
  | [], state => ([], false, state)
  | block :: rest, state =>
    match watch.poll state with
    | (true, state) => ([], true, state)
    | (false, state) =>
      let (edges, stopped, state) :=
        follow scope watch rest (watch.touchAll (scope.asked block) state)
      (scope.edge block :: edges, stopped, state)

def gather (ranges : List AddressRange) (edges : List Edge) : Scan where
  candidates := ranges.map .ofRange ++ edges.flatMap Edge.candidates
  stats := edges.foldl (fun stats edge => stats + edge.stats) { runtimeFunctions := ranges.length }

def finish (scope : Scope) (scan : Scan) : Scan :=
  let candidates := Candidate.arrange scan.candidates
  { scan with
    candidates := candidates.map (Candidate.resolve scope.blocks)
    claims := Candidate.claims scope.blocks candidates
    stats := { scan.stats with unresolved := Candidate.misses scope.blocks candidates } }

def shardBlocks (scope : Scope) (shard : IndexRange) : List Block :=
  (scope.blocks.toList.drop shard.first).take shard.length

def run (scope : Scope) (watch : Watch σ) (shard : IndexRange) (state : σ) : Scan × σ :=
  if shard.isEmpty || scope.blocks.size < shard.stop then ({}, state)
  else
    let (edges, stopped, state) := follow scope watch (shardBlocks scope shard) state
    let scan := gather (scope.listed shard) edges
    (if stopped then { scan with cancelled := true } else finish scope scan, state)

def runAll (scope : Scope) (watch : Watch σ) : List IndexRange → σ → List Scan × σ
  | [], state => ([], state)
  | shard :: rest, state =>
    let (scan, state) := run scope watch shard state
    let (scans, state) := runAll scope watch rest state
    (scan :: scans, state)

end Scan

end FunctionDiscovery
