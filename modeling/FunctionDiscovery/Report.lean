import FunctionDiscovery.Discovery
import FunctionDiscovery.Json.Writer

set_option autoImplicit false

namespace FunctionDiscovery

open FunctionDiscovery.Json

def IndexRange.document (range : IndexRange) : Document :=
  .object [("start", .number range.first), ("end", .number range.stop)]

def Candidate.document (c : Candidate) : Document :=
  .object [
    ("start", .number c.start.toNat),
    ("end", (c.stop.map fun stop => Document.number stop.toNat).getD .null),
    ("block_range", (c.blocks.map IndexRange.document).getD .null)]

def Record.document (record : Record) : Document :=
  .object [
    ("start", .number record.start.toNat),
    ("end", .number record.last.toNat),
    ("auto_discovered", .boolean record.discovered)]

def Stats.members (stats : Stats) : List (String × Document) := [
  ("runtime_functions", .number stats.runtimeFunctions),
  ("call_edges", .number stats.callEdges),
  ("indirect_read_failures", .number stats.unreadablePointers),
  ("indirect_unreadable_targets", .number stats.unreadableTargets),
  ("out_of_bounds", .number stats.outOfBounds),
  ("resolution_misses", .number stats.unresolved)]

def Stats.document (stats : Stats) : Document := .object stats.members

def DiscoveryStats.document (stats : DiscoveryStats) : Document :=
  .object (stats.scan.members ++ [
    ("shards", .number stats.shards),
    ("blocks_claimed", .number stats.blocksClaimed),
    ("committed", .number stats.committed),
    ("commit_rejected", .number stats.rejected)])

def Report.document (report : Report) : Document :=
  .object [
    ("functions", .array (report.functions.map Candidate.document)),
    ("tentative", .array (report.tentative.map fun a => .number a.toNat)),
    ("stats", report.stats.document),
    ("cancelled", .boolean report.cancelled)]

end FunctionDiscovery
