import TreeCheck.Diagnostic

/-!
Bags collect diagnostics up to a limit and count what they refuse. Merging moves the limit instead
of refusing, deduplication keeps the first of equal diagnostics, and sorting is stable.
-/

namespace TreeCheck

/-- Diagnostics up to a limit; a limit that is not positive is none. -/
structure Bag where
  items : Array Diagnostic
  limit : Int
  dropped : Nat

namespace Bag

def empty (limit : Int) : Bag :=
  ⟨#[], limit, 0⟩

def isFull (b : Bag) : Bool :=
  0 < b.limit && b.limit ≤ b.items.size

def add (b : Bag) (d : Diagnostic) : Bag :=
  if b.isFull then { b with dropped := b.dropped + 1 } else { b with items := b.items.push d }

def addAll (b : Bag) (ds : List Diagnostic) : Bag :=
  ds.foldl add b

def count (b : Bag) (s : Severity) : Nat :=
  (b.items.toList.filter (·.severity = s)).length

def hasErrors (b : Bag) : Bool :=
  0 < b.count .error

def hasWarnings (b : Bag) : Bool :=
  b.items.toList.any fun d => Severity.warning.level ≤ d.severity.level

def merge (b other : Bag) : Bag :=
  let total := b.items.size + other.items.size
  { items := b.items ++ other.items
    limit := if 0 < b.limit && b.limit < total then total else b.limit
    dropped := b.dropped + other.dropped }

/-- Sorted by position, severity and code; diagnostics equal in all three keep their order. -/
def sort (b : Bag) : Bag :=
  { b with items := (b.items.toList.mergeSort fun x y => !y.before x).toArray }

/-- The diagnostics whose key is neither among the given keys nor that of an earlier one. -/
def distinct (seen : List Text) : List Diagnostic → List Diagnostic
  | [] => []
  | d :: rest =>
    let key := d.key
    if seen.contains key then distinct seen rest else d :: distinct (key :: seen) rest

def dedup (b : Bag) : Bag :=
  { b with items := (distinct [] b.items.toList).toArray }

end Bag

/-- A diagnostic on its way to a bag; it is sent at most once. -/
structure Report where
  diagnostic : Diagnostic
  sent : Bool

namespace Report

def start (d : Diagnostic) : Report :=
  ⟨d, false⟩

/-- Sends the diagnostic unless it was sent before. Without a bag it is lost. -/
def emit (r : Report) (bag : Option Bag) : Report × Option Bag :=
  if r.sent then (r, bag) else ({ r with sent := true }, bag.map (·.add r.diagnostic))

end Report

end TreeCheck
