import EntityCursor.Json.Basic

/-!
Counters of cursor iterations. They have 64 bits and start again from zero after their largest
value, so that they are the numbers of what they count as long as these stay below `2 ^ 64`.
-/

namespace EntityCursor

structure Metrics where
  completed : UInt64 := 0
  failed : UInt64 := 0
  remoteQueries : UInt64 := 0
  shortCircuits : UInt64 := 0
  localStages : UInt64 := 0
  rowsReturned : UInt64 := 0
deriving DecidableEq

namespace Metrics

def countOpened (metrics : Metrics) (remote : Bool) (stages : Nat) : Metrics :=
  { metrics with
    remoteQueries := if remote then metrics.remoteQueries + 1 else metrics.remoteQueries
    shortCircuits := if remote then metrics.shortCircuits else metrics.shortCircuits + 1
    localStages := metrics.localStages + UInt64.ofNat stages }

def countCompleted (metrics : Metrics) (rows : Nat) : Metrics :=
  { metrics with
    completed := metrics.completed + 1
    rowsReturned := metrics.rowsReturned + UInt64.ofNat rows }

def countFailed (metrics : Metrics) : Metrics :=
  { metrics with failed := metrics.failed + 1 }

def toJson (metrics : Metrics) : Json :=
  .object [("iterations_completed", .integer metrics.completed.toNat),
    ("iterations_failed", .integer metrics.failed.toNat),
    ("local_stages", .integer metrics.localStages.toNat),
    ("remote_queries", .integer metrics.remoteQueries.toNat),
    ("rows_returned", .integer metrics.rowsReturned.toNat),
    ("short_circuits", .integer metrics.shortCircuits.toNat)]

end Metrics

end EntityCursor
