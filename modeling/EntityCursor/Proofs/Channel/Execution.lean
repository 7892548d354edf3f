import EntityCursor.Chain.Plan
import EntityCursor.Proofs.Channel.TableEngine
import EntityCursor.Proofs.Chain.Split
import EntityCursor.Proofs.Cursor.Building
import EntityCursor.Proofs.Descriptor.Rows

/-!
Executing queries operator by operator. Each operator that can be sent has a reading on rows, and
executing the query of a list of operators applies their readings one after the other. The readings
keep the shape of rows: they are rows of the table, or have exactly the columns of the last
projection.
-/

namespace EntityCursor

def Operator.onRows (entity : String) : Operator → List Row → Except ChannelError (List Row)
  | .take count, rows => .ok (rows.take count)
  | .skip count, rows => .ok (rows.drop count)
  | .project columns, rows => .ok (rows.map (TableEngine.selectColumns columns))
  | .expressionFilter _ expression, rows =>
      match TableEngine.filterRows entity expression.compile rows with
      | .ok kept => .ok kept
      | .error failure => .error (.opening failure.message)
  | .sortBy keys, rows => .ok (TableEngine.sortRows keys rows)
  | _, rows => .ok rows

namespace TableEngine

variable {entity : String} {query longer : Query}

theorem execute_pushOperator (tables : Fields (List Row)) {operator : Operator}
    (pushed : Plan.pushOperator query operator = .ok longer) :
    execute tables longer = (execute tables query >>= operator.onRows query.entity) ∧
      longer.entity = query.entity ∧
      longer.selectedColumns? = operator.columnsAfter query.selectedColumns? := by
  cases operator with
  | scan entity => cases pushed
  | predicateFilter predicate => cases pushed
  | aggregate field aggregation => cases pushed
  | map transform => cases pushed
  | take count =>
      cases pushed
      exact ⟨rfl, rfl, rfl⟩
  | skip count =>
      cases pushed
      exact ⟨rfl, rfl, rfl⟩
  | project columns =>
      cases pushed
      exact ⟨rfl, rfl, rfl⟩
  | expressionFilter predicate expression =>
      cases pushed
      exact ⟨rfl, rfl, rfl⟩
  | sortBy keys =>
      cases pushed
      exact ⟨rfl, rfl, rfl⟩

theorem selectedColumns?_pushOperators {operators : List Operator}
    (pushed : Plan.pushOperators query operators = .ok longer) :
    longer.selectedColumns? =
      operators.foldl (fun selected operator => operator.columnsAfter selected)
        query.selectedColumns? := by
  induction operators generalizing query with
  | nil =>
      cases pushed
      rfl
  | cons operator rest inductionHypothesis =>
      rw [Plan.pushOperators] at pushed
      obtain ⟨next, pushedFirst, pushedRest⟩ := Outcome.bind_eq_ok.mp pushed
      rw [inductionHypothesis pushedRest, (execute_pushOperator [] pushedFirst).2.2,
        List.foldl_cons]

theorem entity_pushOperators {operators : List Operator}
    (pushed : Plan.pushOperators query operators = .ok longer) : longer.entity = query.entity := by
  induction operators generalizing query with
  | nil =>
      cases pushed
      rfl
  | cons operator rest inductionHypothesis =>
      rw [Plan.pushOperators] at pushed
      obtain ⟨next, pushedFirst, pushedRest⟩ := Outcome.bind_eq_ok.mp pushed
      rw [inductionHypothesis pushedRest, (execute_pushOperator [] pushedFirst).2.1]

theorem execute_congr {tables others : Fields (List Row)}
    (same : Fields.get? query.entity tables = Fields.get? query.entity others) :
    execute tables query = execute others query := by
  induction query with
  | scan entity =>
      have sameTable : Fields.get? entity tables = Fields.get? entity others := same
      rw [execute, execute, sameTable]
  | filter expression inner inductionHypothesis =>
      rw [execute, execute, inductionHypothesis same]
  | select columns inner inductionHypothesis =>
      rw [execute, execute, inductionHypothesis same]
  | take count inner inductionHypothesis => rw [execute, execute, inductionHypothesis same]
  | skip count inner inductionHypothesis => rw [execute, execute, inductionHypothesis same]
  | sort keys inner inductionHypothesis => rw [execute, execute, inductionHypothesis same]

theorem mem_of_mem_filterRows {expression : CompiledExpr} {rows kept : List Row}
    (filtered : filterRows entity expression rows = .ok kept) {row : Row} (member : row ∈ kept) :
    row ∈ rows := by
  induction rows generalizing kept with
  | nil =>
      cases filtered
      exact member
  | cons first rest inductionHypothesis =>
      rw [filterRows] at filtered
      obtain ⟨holds, _, filtered⟩ := Outcome.bind_eq_ok.mp filtered
      obtain ⟨others, filteredRest, filtered⟩ := Outcome.bind_eq_ok.mp filtered
      cases filtered
      cases holds with
      | false => exact List.mem_cons_of_mem _ (inductionHypothesis filteredRest member)
      | true =>
          rcases List.mem_cons.mp member with rfl | later
          · exact List.mem_cons_self
          · exact List.mem_cons_of_mem _ (inductionHypothesis filteredRest later)

variable {registry : Registry} {descriptor : EntityDescriptor}

@[simp]
theorem hasExactly_selectColumns (columns : List String) (row : Row) :
    Fields.HasExactly columns (fun name => (Fields.get? name row).getD .null)
      (selectColumns columns row) :=
  .ofList_map _ columns

theorem shaped_selectColumns {columns : List String} (distinct : columns.Nodup) (row : Row) :
    registry.Shaped entity descriptor (some columns) (selectColumns columns row) :=
  have exact := hasExactly_selectColumns columns row
  ⟨distinct, exact.ascending, exact.hasNames.mem_names⟩

theorem shaped_onRows {operator : Operator} {columns : Option (List String)}
    {rows changed : List Row} (sendable : operator.Sendable) (allowed : operator.Allowed columns)
    (shaped : ∀ row ∈ rows, registry.Shaped entity descriptor columns row)
    (applied : operator.onRows entity rows = .ok changed) :
    ∀ row ∈ changed,
      registry.Shaped entity descriptor (operator.columnsAfter columns) row := by
  intro row member
  cases operator with
  | scan entity => exact sendable.elim
  | predicateFilter predicate => exact sendable.elim
  | aggregate field aggregation => exact sendable.elim
  | map transform => exact sendable.elim
  | take count =>
      cases applied
      exact shaped row (List.mem_of_mem_take member)
  | skip count =>
      cases applied
      exact shaped row (List.mem_of_mem_drop member)
  | project columns =>
      cases applied
      obtain ⟨original, _, rfl⟩ := List.mem_map.mp member
      exact shaped_selectColumns allowed original
  | expressionFilter predicate expression =>
      rw [Operator.onRows] at applied
      split at applied
      · next kept filtered =>
          cases applied
          exact shaped row (mem_of_mem_filterRows filtered member)
      · cases applied
  | sortBy keys =>
      cases applied
      exact shaped row (List.mem_mergeSort.mp member)

end TableEngine

end EntityCursor
