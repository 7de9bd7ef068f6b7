import FunctionDiscovery.BlockMap

set_option autoImplicit false

namespace FunctionDiscovery

structure Candidate where
  start : Address
  stop : Option Address := none
  blocks : Option IndexRange := none
deriving DecidableEq, Repr

namespace Candidate

def entryPoint (start : Address) : Candidate := { start }

def ofRange (range : AddressRange) : Candidate := { start := range.start, stop := range.stop }

def isResolved (c : Candidate) : Bool := c.blocks.isSome

-- An unknown end comes before every known one.
def compareStops : Option Address → Option Address → Ordering
  | none, none => .eq
  | none, some _ => .lt
  | some _, none => .gt
  | some a, some b => compare a b

def compare (a b : Candidate) : Ordering :=
  (Ord.compare a.start b.start).then (compareStops a.stop b.stop)

def le (a b : Candidate) : Bool := (compare a b).isLE

-- The blocks of a candidate are found later and do not tell it apart.
def same (a b : Candidate) : Bool := a.start == b.start && a.stop == b.stop

def distinctAfter (last : Candidate) : List Candidate → List Candidate
  | [] => []
  | c :: rest => if last.same c then distinctAfter last rest else c :: distinctAfter c rest

def distinct : List Candidate → List Candidate
  | [] => []
  | c :: rest => c :: distinctAfter c rest

def arrange (candidates : List Candidate) : List Candidate :=
  distinct (candidates.mergeSort le)

def isBounded (candidates : List Candidate) (start : Address) : Bool :=
  candidates.any fun c => c.stop.isSome && c.start == start

def fold (candidates : List Candidate) : List Candidate :=
  candidates.filter fun c => c.stop.isSome || !isBounded candidates c.start

def span? (map : BlockMap) (c : Candidate) : Option IndexRange :=
  c.stop.bind (map.touching? c.start)

def resolve (map : BlockMap) (c : Candidate) : Candidate :=
  match c.span? map with
  | some range => { c with blocks := some range }
  | none => c

def claims (map : BlockMap) (candidates : List Candidate) : List IndexRange :=
  candidates.filterMap (span? map)

def misses (map : BlockMap) (candidates : List Candidate) : Nat :=
  candidates.countP fun c => c.stop.isSome && (c.span? map).isNone

end Candidate

end FunctionDiscovery
