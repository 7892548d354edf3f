import EntityCursor.Chain.Operator
import EntityCursor.Json.Source

/-!
Pushdown policies: which operators may be handed to the remote engine.
-/

namespace EntityCursor

structure Policy where
  pushTake : Bool := true
  pushSkip : Bool := true
  pushProject : Bool := true
  pushExpressionFilter : Bool := true
  /-- The number of sorts the remote engine may be given. -/
  maxPushedSorts : UInt8 := 1
  /-- Whether nothing is handed over after the first take or skip. -/
  stopAfterLimit : Bool := false
deriving DecidableEq, Inhabited

namespace Policy

def scanOnly : Policy :=
  { pushTake := false, pushSkip := false, pushProject := false, pushExpressionFilter := false,
    maxPushedSorts := 0 }

def untilTake : Policy := { stopAfterLimit := true }

/-- Whether a policy hands over an operator, where `sorts` counts the sorts up to it. -/
def allows (policy : Policy) (sorts : UInt8) : Operator → Bool
  | .take _ => policy.pushTake
  | .skip _ => policy.pushSkip
  | .project _ => policy.pushProject
  | .expressionFilter .. => policy.pushExpressionFilter
  | .sortBy _ => sorts ≤ policy.maxPushedSorts
  | _ => false

def isLimit : Operator → Bool
  | .take _ => true
  | .skip _ => true
  | _ => false

def isSort : Operator → Bool
  | .sortBy _ => true
  | _ => false

/-- The counter of sorts behind an operator; none if it runs over. -/
def count? (sorts : UInt8) (operator : Operator) : Option UInt8 :=
  if isSort operator then if sorts = 255 then none else some (sorts + 1) else some sorts

/-- The number of operators at the front that are handed over, where `sorts` sorts have been counted
before them; none if the counter runs over. -/
def pushedFrom? (policy : Policy) (sorts : UInt8) : List Operator → Option Nat
  | [] => some 0
  | operator :: rest => do
      let sorts ← count? sorts operator
      if policy.allows sorts operator then
        if policy.stopAfterLimit && isLimit operator then some 1
        else (policy.pushedFrom? sorts rest).map (1 + ·)
      else some 0

/-- The length of the part of a list of operators that is handed over; the root always is. -/
def pushedLength? (policy : Policy) : List Operator → Option Nat
  | [] => some 0
  | _ :: rest => (policy.pushedFrom? 0 rest).map (1 + ·)

def toJson (policy : Policy) : Json :=
  .object [("maxPushedSorts", .integer policy.maxPushedSorts.toNat),
    ("pushExpressionFilter", .bool policy.pushExpressionFilter),
    ("pushProject", .bool policy.pushProject), ("pushSkip", .bool policy.pushSkip),
    ("pushTake", .bool policy.pushTake), ("stopAfterLimit", .bool policy.stopAfterLimit)]

def flagOfSource? (default : Bool) : Option Source → Option Bool
  | none => some default
  | some source => source.bool?

def ofSource? (source : Source) : Option Policy := do
  match ← source.record? ["pushTake", "pushSkip", "pushProject", "pushExpressionFilter",
      "maxPushedSorts", "stopAfterLimit"] with
  | [take, skip, project, filter, sorts, stop] =>
      let default : Policy := {}
      let sorts ←
        match sorts with
        | none => some default.maxPushedSorts
        | some sorts => (sorts.natural? 256).map UInt8.ofNat
      return {
        pushTake := ← flagOfSource? default.pushTake take
        pushSkip := ← flagOfSource? default.pushSkip skip
        pushProject := ← flagOfSource? default.pushProject project
        pushExpressionFilter := ← flagOfSource? default.pushExpressionFilter filter
        maxPushedSorts := sorts
        stopAfterLimit := ← flagOfSource? default.stopAfterLimit stop }
  | _ => none

end Policy

end EntityCursor
