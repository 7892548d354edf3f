import EntityCursor.Proofs.Channel.Execution
import EntityCursor.Proofs.Expr.Narrowing
import EntityCursor.Proofs.Pipeline.Columns
import EntityCursor.Proofs.Pipeline.Whole

/-!
The remote engine against the process. Where an operator may run on either side, running it on rows
and running it on the elements of these rows go together: the two agree, or the process fails before
it delivers anything, or the engine refuses and then the process fails too.
-/

namespace EntityCursor

variable {registry : Registry} {entity : String} {descriptor : EntityDescriptor}

open Registry

/-! Projections. -/

theorem project_entity (columns : List String) (row : Row) :
    (plainElement entity none row).project columns =
      .ok (plainElement entity (some columns) (TableEngine.selectColumns columns row)) := by
  have selected := Value.hasExactly_ofJsonMembers (TableEngine.hasExactly_selectColumns columns row)
  have same : (Entity.mk entity (Value.ofJsonMembers row)).project columns =
      Value.ofJsonMembers (TableEngine.selectColumns columns row) := by
    apply ((Entity.mk entity _).hasExactly_project columns).eq_iff selected |>.mpr
    intro name _
    rw [Entity.get?, Value.get?_ofJsonMembers]
    exact Value.getD_map_ofJson row name
  rw [plainElement, Value.project, same, plainElement]

theorem project_record {columns : List String} (distinct : columns.Nodup) {selected : List String}
    {row : Row} (ascending : Fields.Ascending row)
    (covered : ∀ name ∈ columns, name ∈ Fields.names row) :
    (plainElement entity (some selected) row).project columns =
      .ok (plainElement entity (some columns) (TableEngine.selectColumns columns row)) := by
  apply (project_record_iff (Value.ascending_ofJsonMembers ascending) ?_
    (Value.hasExactly_ofJsonMembers (TableEngine.hasExactly_selectColumns columns row))).mpr
    distinct
  intro name listed
  obtain ⟨document, found⟩ := Option.isSome_iff_exists.mp
    (Fields.get?_isSome_iff_mem_names.mpr (covered name listed))
  rw [Value.get?_ofJsonMembers, found]
  rfl

/-- Projecting elements is selecting columns of their rows, or it fails for the first element, since
all rows have the same columns. -/
theorem attempt_project {columns : List String} (distinct : columns.Nodup)
    {selected : Option (List String)} {rows : List Row}
    (shaped : ∀ row ∈ rows, registry.Shaped entity descriptor selected row) :
    (Course.whole (rows.map (plainElement entity selected))).attempt (Value.project columns) =
        .whole ((rows.map (TableEngine.selectColumns columns)).map
          (plainElement entity (some columns))) ∨
      ((Course.whole (rows.map (plainElement entity selected))).attempt
        (Value.project columns)).Stuck := by
  rw [List.map_map]
  cases selected with
  | none => exact .inl (Course.attempt_whole_of_ok fun row _ => project_entity columns row)
  | some selected =>
      by_cases covered : ∀ name ∈ columns, name ∈ selected
      · left
        apply Course.attempt_whole_of_ok
        intro row member
        apply project_record distinct (shaped row member).2.1
        intro name listed
        exact ((shaped row member).2.2 name).mpr (covered name listed)
      · cases rows with
        | nil => exact .inl rfl
        | cons row rest =>
            -- All rows have the same columns, so the first element is refused already.
            right
            simp only [Classical.not_forall] at covered
            obtain ⟨name, listed, missing⟩ := covered
            have missingField : name ∉ Fields.names (Value.ofJsonMembers row) := by
              rw [Value.names_ofJsonMembers, (shaped row List.mem_cons_self).2.2 name]
              exact missing
            obtain ⟨failure, refused⟩ :=
              projectRecord_of_missing [] listed missingField
            have projected : (plainElement entity (some selected) row).project columns =
                .error failure := by
              rw [plainElement, Value.project, refused]
              rfl
            rw [List.map_cons, Course.whole_cons, Course.attempt_cons_of_error projected]
            exact ⟨failure, rfl⟩

/-! Sort keys. -/

theorem fieldOrNull_plainElement (columns : Option (List String)) (row : Row) (key : SortKey) :
    (plainElement entity columns row).fieldOrNull key.field = .ok (TableEngine.keyValue row key) ∨
      ∃ failure, (plainElement entity columns row).fieldOrNull key.field = .error failure := by
  cases columns with
  | none =>
      left
      simp only [plainElement, Value.fieldOrNull, Value.field?, Value.get?_ofJsonMembers,
        TableEngine.keyValue]
      cases Fields.get? key.field row <;> rfl
  | some columns =>
      cases found : Fields.get? key.field row with
      | none =>
          right
          refine ⟨.fieldNotSelected key.field, ?_⟩
          simp [plainElement, Value.fieldOrNull, Value.field?, found]
      | some document =>
          left
          simp [plainElement, Value.fieldOrNull, Value.field?, TableEngine.keyValue, found]

theorem keyValues_plainElement (columns : Option (List String)) (row : Row) (keys : List SortKey) :
    (plainElement entity columns row).keyValues keys =
        .ok (keys.map (TableEngine.keyValue row)) ∨
      ∃ failure, (plainElement entity columns row).keyValues keys = .error failure := by
  induction keys with
  | nil => exact .inl rfl
  | cons key rest inductionHypothesis =>
      rw [Value.keyValues]
      rcases fieldOrNull_plainElement columns row key with read | ⟨failure, read⟩
      · rcases inductionHypothesis with others | ⟨failure, others⟩
        · rw [read, others]
          exact .inl rfl
        · rw [read, others]
          exact .inr ⟨failure, rfl⟩
      · rw [read]
        exact .inr ⟨failure, rfl⟩

def keyedElement (entity : String) (columns : Option (List String)) (keys : List SortKey)
    (row : Row) : List Value × Value :=
  (keys.map (TableEngine.keyValue row), plainElement entity columns row)

theorem sortByKeys_keyedElements (columns : Option (List String)) (keys : List SortKey)
    (rows : List Row) :
    sortByKeys keys (rows.map (keyedElement entity columns keys)) =
      (TableEngine.sortRows keys rows).map (plainElement entity columns) := by
  rw [sortByKeys, TableEngine.sortRows, ← List.map_mergeSort, List.map_map]
  · rfl
  · intro left _ right _
    rfl

theorem sorted_plainElements (columns : Option (List String)) (keys : List SortKey)
    (rows : List Row) :
    (Course.whole (rows.map (plainElement entity columns))).sorted keys =
        .whole ((TableEngine.sortRows keys rows).map (plainElement entity columns)) ∨
      ((Course.whole (rows.map (plainElement entity columns))).sorted keys).Stuck := by
  have keysRead : ∀ row ∈ rows,
      Course.key keys (plainElement entity columns row) =
          .ok (keyedElement entity columns keys row) ∨
        ∃ failure, Course.key keys (plainElement entity columns row) = .error failure := by
    intro row _
    rcases keyValues_plainElement columns row keys with read | ⟨failure, read⟩
    · exact .inl (by rw [Course.key, read]; rfl)
    · exact .inr ⟨failure, by rw [Course.key, read]; rfl⟩
  rcases Course.attempt_whole keysRead with changed | ⟨failure, fails⟩
  · left
    rw [← sortByKeys_keyedElements, Course.sorted, changed]
    simp [Course.whole, Function.comp_def]
  · right
    exact ⟨failure, by simp only [Course.sorted, fails]⟩

/-! Filters. -/

/-- Filtering elements is filtering their rows, where a predicate on elements says the same as an
expression on rows. -/
theorem keep_plainElements {columns : Option (List String)} {expression : CompiledExpr}
    {predicate : Predicate} {rows : List Row}
    (same : ∀ row ∈ rows, ∀ holds,
      expression.accepts (TableEngine.untypedElement entity row) = .ok holds ↔
        predicate (plainElement entity columns row) = .ok holds) :
    match TableEngine.filterRows entity expression rows with
    | .ok kept =>
        (Course.whole (rows.map (plainElement entity columns))).keep predicate =
          .whole (kept.map (plainElement entity columns))
    | .error _ =>
        ((Course.whole (rows.map (plainElement entity columns))).keep predicate).Fails := by
  induction rows with
  | nil => rfl
  | cons row rest inductionHypothesis =>
      have sameFirst := same row List.mem_cons_self
      have later := inductionHypothesis fun other member =>
        same other (List.mem_cons_of_mem _ member)
      rw [TableEngine.filterRows, List.map_cons, Course.whole_cons]
      cases judged : expression.accepts (TableEngine.untypedElement entity row) with
      | error failure =>
          cases judgedElement : predicate (plainElement entity columns row) with
          | error own =>
              rw [Course.keep_cons_of_error judgedElement]
              exact ⟨own, rfl⟩
          | ok holds =>
              have agreed := (sameFirst holds).mpr judgedElement
              rw [judged] at agreed
              cases agreed
      | ok holds =>
          have judgedElement := (sameFirst holds).mp judged
          cases filtered : TableEngine.filterRows entity expression rest with
          | error failure =>
              rw [filtered] at later
              cases holds with
              | true =>
                  rw [Course.keep_cons_of_accepted judgedElement]
                  exact later
              | false =>
                  rw [Course.keep_cons_of_refused judgedElement]
                  exact later
          | ok kept =>
              rw [filtered] at later
              cases holds with
              | true =>
                  rw [Course.keep_cons_of_accepted judgedElement]
                  exact congrArg _ later
              | false =>
                  rw [Course.keep_cons_of_refused judgedElement]
                  exact later

theorem accepts_plainElement {columns : Option (List String)} {expression : Expr} {row : Row}
    (shaped : registry.Shaped entity descriptor columns row)
    (covered : ∀ selected, columns = some selected → ∀ name ∈ expression.fields, name ∈ selected)
    (holds : Bool) :
    expression.compile.accepts (TableEngine.untypedElement entity row) = .ok holds ↔
      expression.compile.accepts (plainElement entity columns row) = .ok holds := by
  cases columns with
  | none => rfl
  | some columns =>
      apply Expr.accepts_compile_alike
      intro name member
      rw [Value.names_ofJsonMembers]
      exact (shaped.2.2 name).mpr (covered columns rfl name member)

/-! The simulation. -/

/-- How the rows that the engine has come to, if it has not refused, go together with the course
that the process has come to. A course may hide a failure only where something is taken. -/
inductive Simulated (entity : String) (columns : Option (List String)) (limited : Prop) :
    Except ChannelError (List Row) → Course Value Unit → Prop where
  | agree (rows : List Row) :
      Simulated entity columns limited (.ok rows) (.whole (rows.map (plainElement entity columns)))
  | stuck (rows : List Row) {course : Course Value Unit} :
      course.Stuck → Simulated entity columns limited (.ok rows) course
  | refused (failure : ChannelError) {course : Course Value Unit} :
      (¬ limited → course.Fails) → Simulated entity columns limited (.error failure) course

/-- One operator on rows and on their elements. -/
theorem simulated_onRows {operator : Operator} {columns : Option (List String)} {limited : Prop}
    {rows : List Row} (sendable : operator.Sendable) (allowed : operator.Allowed columns)
    (shaped : ∀ row ∈ rows, registry.Shaped entity descriptor columns row) :
    Simulated entity (operator.columnsAfter columns) limited (operator.onRows entity rows)
      ((Course.whole (rows.map (plainElement entity columns))).after operator) := by
  cases operator with
  | scan entity => exact sendable.elim
  | predicateFilter predicate => exact sendable.elim
  | aggregate field aggregation => exact sendable.elim
  | map transform => exact sendable.elim
  | take count =>
      rw [Course.after, Course.take_whole, ← List.map_take]
      exact .agree (rows.take count)
  | skip count =>
      rw [Course.after, Course.skip_whole, ← List.map_drop]
      exact .agree (rows.drop count)
  | sortBy keys =>
      rw [Course.after]
      rcases sorted_plainElements columns keys rows with agreed | stuck
      · rw [agreed]
        exact .agree (TableEngine.sortRows keys rows)
      · exact .stuck (TableEngine.sortRows keys rows) stuck
  | expressionFilter predicate expression =>
      obtain ⟨rfl, covered⟩ := allowed
      have kept := keep_plainElements fun row member holds =>
        accepts_plainElement (shaped row member) covered holds
      rw [Course.after, Operator.onRows]
      cases filtered : TableEngine.filterRows entity expression.compile rows with
      | ok rowsKept =>
          rw [filtered] at kept
          simp only [kept]
          exact .agree rowsKept
      | error failure =>
          rw [filtered] at kept
          exact .refused _ fun _ => kept
  | project columns =>
      rw [Course.after]
      rcases attempt_project allowed shaped with agreed | stuck
      · rw [agreed]
        exact .agree (rows.map (TableEngine.selectColumns columns))
      · exact .stuck (rows.map (TableEngine.selectColumns columns)) stuck

theorem Simulated.step {operator : Operator} {columns : Option (List String)} {limited : Prop}
    {executed : Except ChannelError (List Row)} {course : Course Value Unit}
    (simulated : Simulated entity columns limited executed course)
    (sendable : operator.Sendable) (allowed : operator.Allowed columns)
    (takes : operator.takesNothing = false) (limits : ∀ count, operator = .take count → limited)
    (shaped : ∀ rows, executed = .ok rows →
      ∀ row ∈ rows, registry.Shaped entity descriptor columns row) :
    Simulated entity (operator.columnsAfter columns) limited
      (executed >>= operator.onRows entity) (course.after operator) := by
  cases simulated with
  | agree rows => exact simulated_onRows sendable allowed (shaped rows rfl)
  | stuck rows stuck =>
      have stuckAfter := stuck.after takes
      rw [Outcome.ok_bind]
      cases operator.onRows entity rows with
      | ok changed => exact .stuck changed stuckAfter
      | error failure => exact .refused failure fun _ => stuckAfter.fails
  | refused failure fails =>
      refine .refused failure fun unlimited => (fails unlimited).after ?_
      rintro count rfl
      exact unlimited (limits count rfl)

theorem Simulated.run {query longer : Query} {tables : Fields (List Row)} {limited : Prop}
    {course : Course Value Unit} {operators : List Operator}
    (simulated : Simulated query.entity query.selectedColumns? limited
      (TableEngine.execute tables query) course)
    (pushed : Plan.pushOperators query operators = .ok longer)
    (sendable : ∀ operator ∈ operators, operator.Sendable)
    (allowed : Operator.AllAllowed query.selectedColumns? operators)
    (takes : ∀ operator ∈ operators, operator.takesNothing = false)
    (limits : ∀ count, .take count ∈ operators → limited)
    (shaped : ∀ rows, TableEngine.execute tables query = .ok rows →
      ∀ row ∈ rows, registry.Shaped query.entity descriptor query.selectedColumns? row) :
    Simulated longer.entity longer.selectedColumns? limited (TableEngine.execute tables longer)
        (operators.foldl Course.after course) ∧
      ∀ rows, TableEngine.execute tables longer = .ok rows →
        ∀ row ∈ rows, registry.Shaped longer.entity descriptor longer.selectedColumns? row := by
  induction operators generalizing query course with
  | nil =>
      cases pushed
      exact ⟨simulated, shaped⟩
  | cons operator rest inductionHypothesis =>
      rw [Plan.pushOperators] at pushed
      obtain ⟨next, pushedFirst, pushedRest⟩ := Outcome.bind_eq_ok.mp pushed
      obtain ⟨executed, sameEntity, columns⟩ :=
        TableEngine.execute_pushOperator tables pushedFirst
      obtain ⟨allowedFirst, allowedRest⟩ := allowed
      have sendableFirst := sendable operator List.mem_cons_self
      -- The operator next to the query is run first; the invariant passes on to what it makes.
      have simulatedNext := simulated.step sendableFirst allowedFirst
        (takes operator List.mem_cons_self)
        (fun count same => limits count (same ▸ List.mem_cons_self)) shaped
      rw [← executed, ← columns, ← sameEntity] at simulatedNext
      have shapedNext : ∀ rows, TableEngine.execute tables next = .ok rows →
          ∀ row ∈ rows, registry.Shaped next.entity descriptor next.selectedColumns? row := by
        intro rows success
        rw [executed] at success
        obtain ⟨before, successBefore, applied⟩ := Outcome.bind_eq_ok.mp success
        rw [sameEntity, columns]
        exact TableEngine.shaped_onRows sendableFirst allowedFirst (shaped before successBefore)
          applied
      exact inductionHypothesis simulatedNext pushedRest
        (fun other member => sendable other (List.mem_cons_of_mem _ member))
        (columns ▸ allowedRest) (fun other member => takes other (List.mem_cons_of_mem _ member))
        (fun count member => limits count (List.mem_cons_of_mem _ member)) shapedNext

end EntityCursor
