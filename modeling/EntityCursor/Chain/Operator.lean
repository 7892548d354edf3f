import EntityCursor.Query.Basic

/-!
The operators of cursor chains. An expression filter carries its expression, for the remote engine,
and a predicate that says the same, for evaluation in the process.
-/

namespace EntityCursor

abbrev Predicate := Value → Outcome Bool

abbrev Transform := Value → Outcome Value

/-- A step of an aggregation, from what has accumulated, if anything has, and the next candidate. -/
abbrev Fold := Option Value → Value → Outcome Value

-- A fold comes with its step: an aggregate that has no fold cannot be written, and the defect of
-- running one needs no case.
inductive Aggregation where
  /-- The smallest candidate that is not null. -/
  | least
  /-- The largest candidate that is not null. -/
  | greatest
  | fold (initial : Option Value) (step : Fold)

inductive Operator where
  | scan (entity : String)
  | take (count : Nat)
  | skip (count : Nat)
  | project (columns : List String)
  | predicateFilter (predicate : Predicate)
  | expressionFilter (predicate : Predicate) (expression : Expr)
  | sortBy (keys : List SortKey)
  | aggregate (field : String) (aggregation : Aggregation)
  | map (transform : Transform)

namespace Operator

def name : Operator → String
  | .scan _ => "Scan"
  | .take _ => "Take"
  | .skip _ => "Skip"
  | .project _ => "Project"
  | .predicateFilter _ => "PredicateFilter"
  | .expressionFilter .. => "ExpressionFilter"
  | .sortBy _ => "SortBy"
  | .aggregate .. => "Aggregate"
  | .map _ => "Map"

def keyText (key : SortKey) : String :=
  key.field ++ if key.ascending then " asc" else " desc"

def describe : Operator → String
  | .scan entity => s!"Scan({entity})"
  | .take count => s!"Take({count})"
  | .skip count => s!"Skip({count})"
  | .project columns => "Project(" ++ ", ".intercalate columns ++ ")"
  | .predicateFilter _ => "PredicateFilter"
  | .expressionFilter _ expression =>
      "ExpressionFilter(" ++ ", ".intercalate expression.fields ++ ")"
  | .sortBy keys => "SortBy(" ++ ", ".intercalate (keys.map keyText) ++ ")"
  | .aggregate field .least => s!"MinBy({field})"
  | .aggregate field .greatest => s!"MaxBy({field})"
  | .aggregate field (.fold ..) => s!"Aggregate({field})"
  | .map _ => "Map"

def takesNothing : Operator → Bool
  | .take 0 => true
  | _ => false

def isScan : Operator → Bool
  | .scan _ => true
  | _ => false

end Operator

end EntityCursor
