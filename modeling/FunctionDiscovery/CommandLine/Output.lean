import FunctionDiscovery.CommandLine.Options
import FunctionDiscovery.Report

set_option autoImplicit false

namespace FunctionDiscovery.CommandLine

open FunctionDiscovery.Json

structure Shown where
  start : Address
  last : Address
  size : Nat
  blocks : Option Nat
deriving DecidableEq, Repr

-- The blocks are those of the first function in the report with the same start.
def shown (report : Report) (record : Record) : Shown where
  start := record.start
  last := record.last
  size := record.last.toNat - record.start.toNat + 1
  blocks :=
    (report.functions.find? fun c => c.start == record.start).bind fun c =>
      c.blocks.map IndexRange.length

def Shown.line (s : Shown) : String :=
  let blocks := match s.blocks with
    | some count => s!"{Numeral.decimal count} blocks"
    | none => "unresolved"
  s!"  {s.start.hex} - {s.last.hex} ({Numeral.hex s.size} bytes, {blocks})"

def Shown.document (s : Shown) : Document :=
  let blocks := match s.blocks with
    | some count => [("blocks", Document.number count)]
    | none => []
  .object ([("start", Document.text s.start.hex), ("end", Document.text s.last.hex),
    ("size", Document.number s.size)] ++ blocks)

def summary (stats : DiscoveryStats) : List String :=
  let number := Numeral.decimal
  let scan := stats.scan
  ["",
    "Summary:",
    "========",
    s!"Shards: {number stats.shards}, runtime functions: {number scan.runtimeFunctions}, " ++
      s!"call edges: {number scan.callEdges}",
    s!"Skipped: {number scan.unreadablePointers} unreadable pointers, " ++
      s!"{number scan.unreadableTargets} unreadable targets, " ++
      s!"{number scan.outOfBounds} out of bounds",
    s!"Blocks claimed: {number stats.blocksClaimed}, " ++
      s!"unresolved ranges: {number scan.unresolved}, refused by table: {number stats.rejected}"]

def textLines (functions : List Shown) (report : Report) : List String :=
  [s!"Found {Numeral.decimal functions.length} functions " ++
      s!"({Numeral.decimal report.tentative.length} entry points with unknown end)"] ++
    functions.map Shown.line ++
    report.tentative.map (fun a => s!"  {a.hex} - ?") ++
    summary report.stats

def document (functions : List Shown) (report : Report) : Document :=
  .object [
    ("functions", .array (functions.map Shown.document)),
    ("tentative", .array (report.tentative.map fun a => .text a.hex)),
    ("stats", report.stats.document),
    ("cancelled", .boolean report.cancelled)]

def render (format : OutputFormat) (table : FunctionTable) (report : Report) : String :=
  let functions := table.records.map (shown report)
  match format with
  | .text => String.join ((textLines functions report).map (· ++ "\n"))
  | .json => (document functions report).pretty "" ++ "\n"

end FunctionDiscovery.CommandLine
