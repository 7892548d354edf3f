import EntityCursor.Chain.Basic
import EntityCursor.Chain.Policy
import EntityCursor.Query.Json

/-!
Plans: how a chain is divided between the remote engine and the process. The remote engine gets the
longest part from the root on that the policy hands over, as one query document, and the operators
after it are applied in the process. If some operator takes nothing, no query is needed at all: the
operators after the last such one are applied to no elements.
-/

namespace EntityCursor

structure Plan where
  entity : String
  /-- The query document; none if no query is needed. -/
  remote : Option Query
  /-- The operators applied in the process, the one applied first in front. -/
  localOperators : List Operator
  shortCircuit : Bool

namespace Plan

def pushOperator (query : Query) : Operator → Outcome Query
  | .take count => .ok (.take count query)
  | .skip count => .ok (.skip count query)
  | .project columns => .ok (.select columns query)
  | .expressionFilter _ expression => .ok (.filter expression query)
  | .sortBy keys => .ok (.sort keys query)
  | other => .error (.defect (.notSendable other.name))

def pushOperators (query : Query) : List Operator → Outcome Query
  | [] => .ok query
  | operator :: rest => do
      let query ← pushOperator query operator
      pushOperators query rest

def afterLastEmptyTake? : List Operator → Option (List Operator)
  | [] => none
  | operator :: rest =>
      match afterLastEmptyTake? rest with
      | some later => some later
      | none => if operator.takesNothing then some rest else none

/-- The plan of the operators above a scan that has a query. -/
def divide (policy : Policy) (entity : String) (operators : List Operator) : Outcome Plan :=
  match policy.pushedFrom? 0 operators with
  | none => .error .overflow
  | some pushed => do
      let query ← pushOperators (.scan entity) (operators.take pushed)
      return ⟨entity, some query, operators.drop pushed, false⟩

def ofOperators (policy : Policy) : List Operator → Outcome Plan
  | .scan entity :: rest =>
      match afterLastEmptyTake? rest with
      | some later => .ok ⟨entity, none, later, true⟩
      | none => divide policy entity rest
  | _ => .error (.defect .noRootScan)

def isProjected (plan : Plan) : Bool :=
  match plan.remote with
  | some query => query.isProjected
  | none => false

def toJson (plan : Plan) : Json :=
  .object [("entity", .string plan.entity),
    ("local", Json.ofStrings (plan.localOperators.map Operator.describe)),
    ("remote", match plan.remote with
      | some query => query.toJson
      | none => .null),
    ("shortCircuit", .bool plan.shortCircuit)]

end Plan

end EntityCursor
