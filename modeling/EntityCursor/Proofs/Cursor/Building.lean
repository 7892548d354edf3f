import EntityCursor.Cursor.Basic
import EntityCursor.Proofs.Outcome

/-!
What building guarantees. The cursors that the building operations give have chains without a second
scan, whose expression filters carry the predicate of their expression and read no field that a
projection has taken away.
-/

namespace EntityCursor

namespace Operator

/-- The columns that are known to be all that can be read after an operator, from those before it.
-/
def columnsAfter : Operator → Option (List String) → Option (List String)
  | .project columns, _ => some columns
  | .map _, _ => none
  | .aggregate .., _ => none
  | .scan _, _ => none
  | .take _, selected => selected
  | .skip _, selected => selected
  | .predicateFilter _, selected => selected
  | .expressionFilter .., selected => selected
  | .sortBy _, selected => selected

/-- An operator that building puts on elements with the given columns. -/
def Allowed (selected : Option (List String)) : Operator → Prop
  | .scan _ => False
  | .project columns => columns.Nodup
  | .expressionFilter predicate expression =>
      predicate = expression.compile.accepts ∧
        ∀ columns, selected = some columns → ∀ name ∈ expression.fields, name ∈ columns
  | _ => True

/-- Every operator of a list, the one applied first in front, is allowed where it stands. -/
def AllAllowed (selected : Option (List String)) : List Operator → Prop
  | [] => True
  | operator :: rest =>
      operator.Allowed selected ∧ AllAllowed (operator.columnsAfter selected) rest

@[simp]
theorem allAllowed_append {selected : Option (List String)} {front back : List Operator} :
    AllAllowed selected (front ++ back) ↔
      AllAllowed selected front ∧
        AllAllowed (front.foldl (fun selected operator => operator.columnsAfter selected) selected)
          back := by
  induction front generalizing selected with
  | nil => simp [AllAllowed]
  | cons operator rest inductionHypothesis =>
      simp [AllAllowed, inductionHypothesis, and_assoc]

theorem isScan_of_allAllowed {selected : Option (List String)} {operators : List Operator}
    (allowed : AllAllowed selected operators) : operators.any isScan = false := by
  induction operators generalizing selected with
  | nil => rfl
  | cons operator rest inductionHypothesis =>
      obtain ⟨first, later⟩ := allowed
      rw [List.any_cons, inductionHypothesis later, Bool.or_false]
      cases operator with
      | scan entity => exact first.elim
      | _ => rfl

end Operator

@[simp]
theorem Chain.selectedBy_cons (operator : Operator) (below : List Operator) :
    selectedBy (operator :: below) = operator.columnsAfter (selectedBy below) := by
  cases operator <;> rfl

theorem Chain.selectedColumns?_eq_foldl (chain : Chain) :
    chain.selectedColumns? =
      chain.operators.foldl (fun selected operator => operator.columnsAfter selected) none := by
  rw [selectedColumns?, ← List.foldr_reverse]
  induction chain.operators.reverse with
  | nil => rfl
  | cons operator below inductionHypothesis =>
      rw [selectedBy_cons, inductionHypothesis, List.foldr_cons]

namespace Cursor

theorem requireSelected_select (cursor : Cursor) {columns fields : List String}
    (covered : ∀ name ∈ fields, name ∈ columns) :
    (cursor.select columns).requireSelected fields = .ok () := by
  have selected : (cursor.select columns).chain.selectedColumns? = some columns := by
    rw [Chain.selectedColumns?_eq_foldl, select, extend, Chain.extend, List.foldl_append]
    rfl
  have nothingMissing : fields.find? (· ∉ columns) = none := by
    simpa using covered
  rw [requireSelected, selected]
  simp only [nothingMissing]

def under (cursor : Cursor) (policy : Policy) : Cursor := { cursor with policy := policy }

/-- The cursors over an entity that building gives without predicates that stand in for an
expression, and where no projection names a column twice. -/
inductive Built (entity : String) : Cursor → Prop where
  | ofEntity (policy : Policy) : Built entity (ofEntity policy entity)
  | select {cursor : Cursor} {columns : List String} :
      Built entity cursor → columns.Nodup → Built entity (cursor.select columns)
  | take {cursor : Cursor} (count : Nat) : Built entity cursor → Built entity (cursor.take count)
  | skip {cursor : Cursor} (count : Nat) : Built entity cursor → Built entity (cursor.skip count)
  | filter {cursor : Cursor} (predicate : Predicate) :
      Built entity cursor → Built entity (cursor.filter predicate)
  | filterExpression {cursor longer : Cursor} {expression : Expr} :
      Built entity cursor → cursor.filterExpression expression = .ok longer → Built entity longer
  | filterDocument {cursor longer : Cursor} {document : Json} :
      Built entity cursor → cursor.filterDocument document = .ok longer → Built entity longer
  | filterWhere {cursor longer : Cursor} {restriction : Restriction} :
      Built entity cursor → cursor.filterWhere restriction = .ok longer → Built entity longer
  | sortBy {cursor : Cursor} (keys : List SortKey) :
      Built entity cursor → Built entity (cursor.sortBy keys)
  | minBy {cursor : Cursor} (field : String) :
      Built entity cursor → Built entity (cursor.minBy field)
  | maxBy {cursor : Cursor} (field : String) :
      Built entity cursor → Built entity (cursor.maxBy field)
  | aggregateBy {cursor : Cursor} (field : String) (initial : Option Value) (step : Fold) :
      Built entity cursor → Built entity (cursor.aggregateBy field initial step)
  | map {cursor : Cursor} (transform : Transform) :
      Built entity cursor → Built entity (cursor.map transform)

/-- What building keeps: the entity, and operators that are allowed where they stand. -/
structure Sound (entity : String) (cursor : Cursor) : Prop where
  entity_eq : cursor.chain.entity = entity
  allowed : Operator.AllAllowed none cursor.chain.operators

namespace Sound

variable {entity : String} {cursor longer : Cursor}

theorem extend (sound : cursor.Sound entity) {operator : Operator}
    (allowed : operator.Allowed cursor.chain.selectedColumns?) :
    (cursor.extend operator).Sound entity := by
  refine ⟨sound.entity_eq, ?_⟩
  apply Operator.allAllowed_append.mpr
  rw [Chain.selectedColumns?_eq_foldl] at allowed
  exact ⟨sound.allowed, allowed, trivial⟩

theorem filterExpression (sound : cursor.Sound entity) {expression : Expr}
    (filtered : cursor.filterExpression expression = .ok longer) : longer.Sound entity := by
  obtain ⟨_, required, extended⟩ := Outcome.bind_eq_ok.mp filtered
  cases extended
  refine sound.extend ⟨rfl, ?_⟩
  intro columns selected name member
  simp only [requireSelected, selected] at required
  split at required
  · cases required
  · next search =>
      have known := List.find?_eq_none.mp search name member
      simpa using known

theorem filterOptional (sound : cursor.Sound entity) {condition : Option Expr}
    (filtered : cursor.filterOptional condition = .ok longer) : longer.Sound entity := by
  cases condition with
  | none =>
      cases filtered
      exact sound
  | some expression => exact sound.filterExpression filtered

end Sound

theorem Built.sound {entity : String} {cursor : Cursor} (built : Built entity cursor) :
    cursor.Sound entity := by
  induction built with
  | ofEntity policy => exact ⟨rfl, trivial⟩
  | select _ distinct inductionHypothesis => exact inductionHypothesis.extend distinct
  | take count _ inductionHypothesis => exact inductionHypothesis.extend trivial
  | skip count _ inductionHypothesis => exact inductionHypothesis.extend trivial
  | filter predicate _ inductionHypothesis => exact inductionHypothesis.extend trivial
  | filterExpression _ filtered inductionHypothesis =>
      exact inductionHypothesis.filterExpression filtered
  | filterDocument _ filtered inductionHypothesis =>
      obtain ⟨_, _, filtered⟩ := Outcome.bind_eq_ok.mp filtered
      exact inductionHypothesis.filterOptional filtered
  | filterWhere _ filtered inductionHypothesis =>
      obtain ⟨_, _, filtered⟩ := Outcome.bind_eq_ok.mp filtered
      obtain ⟨_, _, filtered⟩ := Outcome.bind_eq_ok.mp filtered
      exact inductionHypothesis.filterOptional filtered
  | sortBy keys _ inductionHypothesis => exact inductionHypothesis.extend trivial
  | minBy field _ inductionHypothesis => exact inductionHypothesis.extend trivial
  | maxBy field _ inductionHypothesis => exact inductionHypothesis.extend trivial
  | aggregateBy field initial step _ inductionHypothesis =>
      exact inductionHypothesis.extend trivial
  | map transform _ inductionHypothesis => exact inductionHypothesis.extend trivial

end Cursor

end EntityCursor
