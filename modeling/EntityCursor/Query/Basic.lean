import EntityCursor.Expr.Basic

/-!
Query documents: what a remote engine is asked to do, as a scan of one entity and the operations
applied to its rows. The outermost operation is the last one applied.
-/

namespace EntityCursor

structure SortKey where
  field : String
  ascending : Bool
deriving DecidableEq, Repr

namespace SortKey

def compare (key : SortKey) (left right : Value) : Ordering :=
  if key.ascending then left.compare right else (left.compare right).swap

/-- The order of two lists of values under keys: the first key that tells them apart decides. -/
def compareAll : List SortKey → List Value → List Value → Ordering
  | key :: keys, left :: leftRest, right :: rightRest =>
      (key.compare left right).then (compareAll keys leftRest rightRest)
  | _, _, _ => .eq

end SortKey

inductive Query where
  | scan (entity : String)
  | filter (expression : Expr) (inner : Query)
  | select (columns : List String) (inner : Query)
  | take (count : Nat) (inner : Query)
  | skip (count : Nat) (inner : Query)
  | sort (keys : List SortKey) (inner : Query)
deriving DecidableEq

namespace Query

def inner? : Query → Option Query
  | .scan _ => none
  | .filter _ inner => some inner
  | .select _ inner => some inner
  | .take _ inner => some inner
  | .skip _ inner => some inner
  | .sort _ inner => some inner

def entity : Query → String
  | .scan entity => entity
  | .filter _ inner => inner.entity
  | .select _ inner => inner.entity
  | .take _ inner => inner.entity
  | .skip _ inner => inner.entity
  | .sort _ inner => inner.entity

def kind : Query → String
  | .scan _ => "BaseEntity"
  | .filter .. => "ExpressionFilter"
  | .select .. => "ColumnsSelect"
  | .take .. => "Take"
  | .skip .. => "Skip"
  | .sort .. => "SortBy"

/-- The query after each operation, the scan first. -/
def nodes : Query → List Query
  | .scan entity => [.scan entity]
  | .filter expression inner => inner.nodes ++ [.filter expression inner]
  | .select columns inner => inner.nodes ++ [.select columns inner]
  | .take count inner => inner.nodes ++ [.take count inner]
  | .skip count inner => inner.nodes ++ [.skip count inner]
  | .sort keys inner => inner.nodes ++ [.sort keys inner]

/-- The columns that the rows of the result have, if some operation narrows them. -/
def selectedColumns? : Query → Option (List String)
  | .scan _ => none
  | .filter _ inner => inner.selectedColumns?
  | .select columns _ => some columns
  | .take _ inner => inner.selectedColumns?
  | .skip _ inner => inner.selectedColumns?
  | .sort _ inner => inner.selectedColumns?

def isProjected (query : Query) : Bool :=
  query.selectedColumns?.isSome

end Query

end EntityCursor
