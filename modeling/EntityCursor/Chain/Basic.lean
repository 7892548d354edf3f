import EntityCursor.Chain.Operator

/-!
Chains of operators: a scan of one entity at the root and the operators applied to it in order. A
chain is well formed if no second scan stands among them.
-/

namespace EntityCursor

-- The root is an entity, so that a chain without a scan at its root cannot be written; lists of
-- operators can be without one, and a plan of them is refused.
structure Chain where
  entity : String
  /-- The operators above the root, the one applied first in front. -/
  operators : List Operator

namespace Chain

def scan (entity : String) : Chain := ⟨entity, []⟩

def extend (chain : Chain) (operator : Operator) : Chain :=
  { chain with operators := chain.operators ++ [operator] }

def length (chain : Chain) : Nat := chain.operators.length + 1

def nodes (chain : Chain) : List Operator := .scan chain.entity :: chain.operators

def tip (chain : Chain) : Operator := chain.operators.getLastD (.scan chain.entity)

def belowTip? (chain : Chain) : Option Operator := chain.nodes.dropLast.getLast?

def walk (chain : Chain) : Outcome (List Operator) :=
  if chain.operators.any Operator.isScan then .error (.defect .scanAboveRoot) else .ok chain.nodes

def scannedEntity (chain : Chain) : Outcome String := do
  let _ ← chain.walk
  return chain.entity

/-- The columns that the elements of a list of operators have, the operator applied last in front,
if some projection narrows them and nothing reshapes them after it. -/
def selectedBy : List Operator → Option (List String)
  | [] => none
  | .project columns :: _ => some columns
  | .map _ :: _ => none
  | .aggregate .. :: _ => none
  | .scan _ :: _ => none
  | _ :: rest => selectedBy rest

/-- The columns that are known to be all that can be read from the elements of a chain. -/
def selectedColumns? (chain : Chain) : Option (List String) :=
  selectedBy chain.operators.reverse

@[simp]
theorem nodes_extend (chain : Chain) (operator : Operator) :
    (chain.extend operator).nodes = chain.nodes ++ [operator] := by
  simp [nodes, extend]

@[simp]
theorem tip_extend (chain : Chain) (operator : Operator) :
    (chain.extend operator).tip = operator := by
  simp [tip, extend]

@[simp]
theorem length_nodes (chain : Chain) : chain.nodes.length = chain.length := by
  simp [nodes, length]

end Chain

end EntityCursor
