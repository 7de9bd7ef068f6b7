import FunctionDiscovery.FunctionTable
import FunctionDiscovery.Image.Load
import FunctionDiscovery.Listing.Load
import FunctionDiscovery.ModuleMap
import FunctionDiscovery.Scan
import FunctionDiscovery.Shard

set_option autoImplicit false

namespace FunctionDiscovery

structure DiscoveryStats where
  scan : Stats := {}
  shards : Nat := 0
  blocksClaimed : Nat := 0
  committed : Nat := 0
  rejected : Nat := 0
deriving DecidableEq, Repr, Inhabited

structure Report where
  functions : List Candidate := []
  tentative : List Address := []
  stats : DiscoveryStats := {}
  cancelled : Bool := false
deriving DecidableEq, Repr, Inhabited

structure Progress where
  announced : Nat := 0
  made : Nat := 0
deriving DecidableEq, Repr, Inhabited

structure Outcome where
  report : Report
  blocks : BlockMap
  table : FunctionTable
  refreshes : Nat
  progress : Progress

structure Discovery where
  bounds : AddressRange
  base : Option Address
  records : List RuntimeFunction
  memory : Memory
  workers : Nat
  width : PointerWidth

namespace Discovery

variable {σ : Type}

def workerCount (processors : Nat) (asked : Option Nat) : Nat := max (asked.getD processors) 1

def recordsAt? (files : Files) (resolver : Resolver) (base : Address) : Option (Address × Nat) := do
  let path ← resolver.path? base
  let image ← (Image.ofFile path (files path)).toOption
  let directory ← image.exceptionDirectory?
  if directory.size = 0 then none
  else if base.toNat + directory.virtualAddress.toNat < UInt64.size then
    some (base + directory.virtualAddress.toUInt64, directory.size.toNat)
  else none

def prepare (files : Files) (resolver : Resolver) (memory : Memory) (watch : Watch σ)
    (bounds : AddressRange) (workers : Nat) (width : PointerWidth) (state : σ) : Discovery × σ :=
  let base := resolver.base? bounds.start
  match base.bind (recordsAt? files resolver) with
  | none => (⟨bounds, base, [], memory, workers, width⟩, state)
  | some (address, size) =>
    let records := match memory.read address size with
      | .ok bytes => RuntimeFunction.decodeAll bytes
      | .error _ => []
    (⟨bounds, base, records, memory, workers, width⟩, watch.touch address state)

def scope (discovery : Discovery) (blocks : BlockMap) : Scope where
  blocks := blocks
  bounds := discovery.bounds
  base := discovery.base
  records := discovery.records
  memory := discovery.memory
  width := discovery.width

def shards (discovery : Discovery) (blocks : BlockMap) : List IndexRange :=
  Shard.partition blocks.size discovery.workers

def mergedStats (scans : List Scan) : Stats :=
  scans.foldl (fun stats scan => stats + scan.stats) {}

def claimAll (blocks : BlockMap) (ranges : List IndexRange) : BlockMap × Nat :=
  ranges.foldl
    (fun (blocks, count) range => (blocks.claim range, count + blocks.unclaimedIn range))
    (blocks, 0)

def commit? (table : FunctionTable) (c : Candidate) : Option FunctionTable :=
  match c.stop with
  | none => none
  | some stop => if stop = 0 then none else table.insert? ⟨c.start, stop - 1, true⟩

def commitAll : List Candidate → FunctionTable × Nat × Nat → FunctionTable × Nat × Nat
  | [], result => result
  | c :: rest, (table, committed, rejected) =>
    match commit? table c with
    | some table => commitAll rest (table, committed + 1, rejected)
    | none => commitAll rest (table, committed, rejected + 1)

def conclude (blocks : BlockMap) (shards : Nat) (scans : List Scan) : Report × BlockMap × FunctionTable :=
  let (blocks, blocksClaimed) := claimAll blocks (scans.flatMap Scan.claims)
  let candidates := Candidate.fold (Candidate.arrange (scans.flatMap Scan.candidates))
  let functions := candidates.filter fun c => c.stop.isSome
  let tentative := (candidates.filter fun c => c.stop.isNone).map Candidate.start
  let (table, committed, rejected) := commitAll functions ({}, 0, 0)
  let stats := ⟨mergedStats scans, shards, blocksClaimed, committed, rejected⟩
  (⟨functions, tentative, stats, false⟩, blocks, table)

/-- Scans all shards and commits what they found; a run that was stopped commits nothing. The watch is asked
once more at the end, unless a scan was stopped. -/
def run (discovery : Discovery) (watch : Watch σ) (blocks : BlockMap) (table : FunctionTable)
    (state : σ) : Outcome × σ :=
  let shards := discovery.shards blocks
  let (scans, state) := Scan.runAll (discovery.scope blocks) watch shards state
  let progress := ⟨shards.length, scans.length⟩
  let (stopped, state) :=
    if scans.any Scan.cancelled then (true, state) else watch.poll state
  if stopped then
    let stats := { scan := mergedStats scans, shards := shards.length }
    (⟨{ stats, cancelled := true }, blocks, table, 0, progress⟩, state)
  else
    let (report, blocks, table) := conclude blocks shards.length scans
    (⟨report, blocks, table, 1, progress⟩, state)

end Discovery

end FunctionDiscovery
