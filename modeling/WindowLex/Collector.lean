import WindowLex.Diagnostic

/-! Diagnostics gathered during a scan. Those beyond the limit are counted and not kept. -/
namespace WindowLex

structure Collector where
  stored : Array Diagnostic := #[]
  dropped : Nat := 0
  /-- How many are kept; a limit below one keeps none. -/
  limit : Int := 100
  deriving DecidableEq, Repr

namespace Collector

def add (c : Collector) (d : Diagnostic) : Collector :=
  if c.limit ≤ c.stored.size then { c with dropped := c.dropped + 1 }
  else { c with stored := c.stored.push d }

def addAll (c : Collector) (ds : List Diagnostic) : Collector := ds.foldl add c

def clear (c : Collector) : Collector := { c with stored := #[], dropped := 0 }

def count (c : Collector) : Nat := c.stored.size + c.dropped

def hasAny (c : Collector) : Bool := 0 < c.stored.size || 0 < c.dropped

def reportLines (c : Collector) : List String :=
  c.stored.toList.flatMap (fun d => [d.text, ""])
    ++ (if c.dropped = 0 then [] else ["... " ++ toString c.dropped ++ " more not shown"])
    ++ [toString c.count ++ if c.count = 1 then " diagnostic" else " diagnostics"]

def report (c : Collector) : String := "\n".intercalate c.reportLines

def summary? (c : Collector) : Option Diagnostic :=
  if c.hasAny then some (.summary c.report) else none

end Collector

end WindowLex
