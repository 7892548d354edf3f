import EntityCursor.Expr.Evaluate
import EntityCursor.Proofs.Fields
import EntityCursor.Proofs.Outcome
import EntityCursor.Proofs.Value.Size

/-!
Expressions on narrowed elements. The remote engine evaluates an expression on a row as an entity,
also if the row was narrowed to columns, while the process has a record of the columns. The two say
the same as long as the expression reads only fields that the record has. The element itself is an
entity on one side and a record on the other; nothing tells the two apart, since they compare with
nothing but themselves and are no conditions.
-/

namespace EntityCursor

theorem Comparison.holds_congr {comparison : Comparison} {left right otherLeft otherRight : Value}
    (same : left.compare? right = otherLeft.compare? otherRight) :
    comparison.holds left right = comparison.holds otherLeft otherRight := by
  cases comparison <;> simp [Comparison.holds, Value.equals, same]

namespace Expr

/-! The fields that an expression reads. -/

theorem addFields_property_of_ne {object : Expr} (different : object ≠ .parameter 0)
    (found : List String) (name : String) :
    (object.property name).addFields found = object.addFields found := by
  cases object with
  | parameter position =>
      cases position with
      | zero => exact absurd rfl different
      | succ position => rfl
  | _ => rfl

@[simp]
theorem mem_addFields {name : String} {found : List String} {expression : Expr} :
    name ∈ expression.addFields found ↔ name ∈ found ∨ name ∈ expression.fields := by
  induction expression generalizing found with
  | literal value => simp [addFields, fields]
  | parameter position => simp [addFields, fields]
  | not operand inductionHypothesis => exact inductionHypothesis
  | binary operator left right leftHypothesis rightHypothesis =>
      rw [fields, addFields, rightHypothesis, leftHypothesis, addFields, rightHypothesis, or_assoc,
        fields]
  | property object other inductionHypothesis =>
      by_cases element : object = .parameter 0
      · subst element
        by_cases known : other ∈ found
        · simp [fields, addFields, known]
          rintro rfl
          exact known
        · simp [fields, addFields, known]
      · rw [fields, addFields_property_of_ne element, addFields_property_of_ne element]
        exact inductionHypothesis

@[simp]
theorem mem_fields_binary {name : String} {operator : BinaryOperator} {left right : Expr} :
    name ∈ (binary operator left right).fields ↔ name ∈ left.fields ∨ name ∈ right.fields := by
  change name ∈ right.addFields left.fields ↔ _
  exact mem_addFields

theorem fields_property_of_ne {object : Expr} (different : object ≠ .parameter 0) (name : String) :
    (object.property name).fields = object.fields :=
  addFields_property_of_ne different [] name

/-! Evaluation. -/

theorem flag_of_return {holds : Bool} {value : Value}
    (returned : (pure (.bool holds) : Outcome Value) = .ok value) :
    ∃ flag, value = .bool flag := by
  cases returned
  exact ⟨holds, rfl⟩

theorem flag_of_bind {Middle : Type} {outcome : Outcome Middle} {next : Middle → Outcome Value}
    {value : Value} (later : ∀ middle, next middle = .ok value → ∃ flag, value = .bool flag)
    (evaluated : (outcome >>= next) = .ok value) : ∃ flag, value = .bool flag := by
  obtain ⟨middle, _, evaluated⟩ := Outcome.bind_eq_ok.mp evaluated
  exact later middle evaluated

theorem evaluateWith_binary {cache : Like.Cache} {element value : Value}
    {operator : BinaryOperator} {left right : Expr}
    (evaluated : (binary operator left right).evaluateWith cache element = .ok value) :
    ∃ flag, value = .bool flag := by
  cases operator with
  | and =>
      rw [evaluateWith] at evaluated
      refine flag_of_bind (fun _ => flag_of_bind ?_) evaluated
      intro holds decided
      cases holds with
      | false => exact flag_of_return decided
      | true => exact flag_of_bind (fun _ => flag_of_bind fun _ => flag_of_return) decided
  | or =>
      rw [evaluateWith] at evaluated
      refine flag_of_bind (fun _ => flag_of_bind ?_) evaluated
      intro holds decided
      cases holds with
      | true => exact flag_of_return decided
      | false => exact flag_of_bind (fun _ => flag_of_bind fun _ => flag_of_return) decided
  | like negated =>
      rw [evaluateWith] at evaluated
      exact flag_of_bind (fun _ => flag_of_bind fun _ => flag_of_bind fun _ => flag_of_return)
        evaluated
  | compare comparison =>
      rw [evaluateWith] at evaluated
      exact flag_of_bind (fun _ => flag_of_bind fun _ => flag_of_return) evaluated

/-- Every expression but the element itself has a value that is smaller than the element. -/
theorem size_lt_of_evaluateWith {cache : Like.Cache} {element value : Value}
    (fielded : 0 < element.size) {expression : Expr} (different : expression ≠ .parameter 0)
    (evaluated : expression.evaluateWith cache element = .ok value) :
    value.size < element.size := by
  induction expression generalizing value with
  | literal literal =>
      cases evaluated
      cases literal <;> exact fielded
  | parameter position =>
      by_cases zero : position = 0
      · exact absurd (congrArg Expr.parameter zero) different
      · simp [evaluateWith, zero] at evaluated
  | property object name inductionHypothesis =>
      rw [evaluateWith] at evaluated
      obtain ⟨whole, evaluatedObject, read⟩ := Outcome.bind_eq_ok.mp evaluated
      have smaller := Value.size_lt_of_fieldOrNull read
      by_cases isElement : object = .parameter 0
      · subst isElement
        simp only [evaluateWith, if_true] at evaluatedObject
        cases evaluatedObject
        exact smaller
      · exact Nat.lt_trans smaller (inductionHypothesis isElement evaluatedObject)
  | not operand _ =>
      rw [evaluateWith] at evaluated
      obtain ⟨flag, rfl⟩ := flag_of_bind (fun _ => flag_of_bind fun _ => flag_of_return) evaluated
      exact fielded
  | binary operator left right _ _ =>
      obtain ⟨flag, rfl⟩ := evaluateWith_binary evaluated
      exact fielded

/-- The outcomes on an entity and on a record of its fields: the element itself, a value that is
smaller than the element, or failures. -/
inductive Alike (entity : String) (fields : List (String × Value)) :
    Outcome Value → Outcome Value → Prop where
  | element : Alike entity fields (.ok (.entity entity fields)) (.ok (.record fields))
  | part (value : Value) : value.size < (Value.record fields).size →
      Alike entity fields (.ok value) (.ok value)
  | failed (failure other : QueryError) : Alike entity fields (.error failure) (.error other)

namespace Alike

variable {entity : String} {fields : List (String × Value)}
  {onEntity onRecord rightOnEntity rightOnRecord : Outcome Value}

theorem flag (flag : Bool) : Alike entity fields (.ok (.bool flag)) (.ok (.bool flag)) :=
  .part (.bool flag) (Nat.succ_pos _)

theorem condition (alike : Alike entity fields onEntity onRecord) (holds : Bool) :
    (onEntity >>= Value.condition?) = .ok holds ↔ (onRecord >>= Value.condition?) = .ok holds := by
  cases alike with
  | element => simp [Value.condition?]
  | part value smaller => rfl
  | failed failure other => simp

theorem bind_condition (alike : Alike entity fields onEntity onRecord)
    {nextOnEntity nextOnRecord : Bool → Outcome Value}
    (next : ∀ holds, Alike entity fields (nextOnEntity holds) (nextOnRecord holds)) :
    Alike entity fields (onEntity >>= fun value => value.condition? >>= nextOnEntity)
      (onRecord >>= fun value => value.condition? >>= nextOnRecord) := by
  cases alike with
  | element => exact .failed _ _
  | failed failure other => exact .failed failure other
  | part value smaller =>
      simp only [Outcome.ok_bind]
      cases condition : value.condition? with
      | ok holds => exact next holds
      | error failure => exact .failed failure failure

/-- A test of two values with a truth value goes on alike if it comes to the same for the element on
both sides. -/
theorem bind_test (left : Alike entity fields onEntity onRecord)
    (right : Alike entity fields rightOnEntity rightOnRecord) {test : Value → Value → Outcome Value}
    (decides : ∀ left right, Alike entity fields (test left right) (test left right))
    (both : test (.entity entity fields) (.entity entity fields) =
      test (.record fields) (.record fields))
    (first : ∀ value : Value, value.size < (Value.record fields).size →
      test (.entity entity fields) value = test (.record fields) value)
    (second : ∀ value : Value, value.size < (Value.record fields).size →
      test value (.entity entity fields) = test value (.record fields)) :
    Alike entity fields (onEntity >>= fun left => rightOnEntity >>= test left)
      (onRecord >>= fun left => rightOnRecord >>= test left) := by
  cases left with
  | failed failure other => exact .failed failure other
  | element =>
      cases right with
      | failed failure other => exact .failed failure other
      | element =>
          simp only [Outcome.ok_bind, both]
          exact decides _ _
      | part value smaller =>
          simp only [Outcome.ok_bind, first value smaller]
          exact decides _ _
  | part value smaller =>
      cases right with
      | failed failure other => exact .failed failure other
      | element =>
          simp only [Outcome.ok_bind, second value smaller]
          exact decides _ _
      | part rightValue rightSmaller =>
          simp only [Outcome.ok_bind]
          exact decides _ _

end Alike

section Comparisons

variable (entity : String) (fields : List (String × Value))

theorem compare?_element_self :
    (Value.entity entity fields).compare? (.entity entity fields) =
      (Value.record fields).compare? (.record fields) := by
  simp [Value.compare?, Value.same]

theorem compare?_element_part {value : Value}
    (smaller : value.size < (Value.record fields).size) :
    (Value.entity entity fields).compare? value = (Value.record fields).compare? value ∧
      value.compare? (.entity entity fields) = value.compare? (.record fields) := by
  have different : value.size ≠ (Value.record fields).size := Nat.ne_of_lt smaller
  obtain ⟨recordLeft, recordRight⟩ := Value.compare?_record_of_size_ne different
  obtain ⟨entityLeft, entityRight⟩ := Value.compare?_entity_of_size_ne entity different
  exact ⟨entityLeft.trans recordLeft.symm, entityRight.trans recordRight.symm⟩

end Comparisons

theorem alike_field {entity name : String} {fields : List (String × Value)}
    (present : name ∈ Fields.names fields) :
    Alike entity fields ((Value.entity entity fields).fieldOrNull name)
      ((Value.record fields).fieldOrNull name) := by
  obtain ⟨value, found⟩ :=
    Option.isSome_iff_exists.mp (Fields.get?_isSome_iff_mem_names.mpr present)
  have onEntity : (Value.entity entity fields).fieldOrNull name = .ok value := by
    simp [Value.fieldOrNull, Value.field?, found]
  have onRecord : (Value.record fields).fieldOrNull name = .ok value := by
    simp [Value.fieldOrNull, Value.field?, found]
  rw [onEntity, onRecord]
  exact .part value (Value.size_lt_of_fieldOrNull onRecord)

/-- Reading a field of anything smaller than the element, which is the same on both sides. -/
theorem Alike.bind_field {entity : String} {fields : List (String × Value)}
    {onEntity onRecord : Outcome Value} (alike : Alike entity fields onEntity onRecord)
    (smaller : ∀ value, onRecord = .ok value → value.size < (Value.record fields).size)
    (name : String) :
    Alike entity fields (onEntity >>= fun value => value.fieldOrNull name)
      (onRecord >>= fun value => value.fieldOrNull name) := by
  cases alike with
  | element => exact absurd (smaller _ rfl) (Nat.lt_irrefl _)
  | failed failure other => exact .failed failure other
  | part value valueSmaller =>
      simp only [Outcome.ok_bind]
      cases read : value.fieldOrNull name with
      | ok entry =>
          exact .part entry (Nat.lt_trans (Value.size_lt_of_fieldOrNull read) valueSmaller)
      | error failure => exact .failed failure failure

theorem alike_binary {cache : Like.Cache} {entity : String} {fields : List (String × Value)}
    (operator : BinaryOperator) {left right : Expr}
    (leftAlike : Alike entity fields (left.evaluateWith cache (.entity entity fields))
      (left.evaluateWith cache (.record fields)))
    (rightAlike : Alike entity fields (right.evaluateWith cache (.entity entity fields))
      (right.evaluateWith cache (.record fields))) :
    Alike entity fields
      ((Expr.binary operator left right).evaluateWith cache (.entity entity fields))
      ((Expr.binary operator left right).evaluateWith cache (.record fields)) := by
  cases operator with
  | and =>
      rw [evaluateWith, evaluateWith]
      apply leftAlike.bind_condition
      intro holds
      cases holds with
      | true => exact rightAlike.bind_condition fun holds => .flag holds
      | false => exact .flag false
  | or =>
      rw [evaluateWith, evaluateWith]
      apply leftAlike.bind_condition
      intro holds
      cases holds with
      | true => exact .flag true
      | false => exact rightAlike.bind_condition fun holds => .flag holds
  | like negated =>
      rw [evaluateWith, evaluateWith]
      apply leftAlike.bind_test rightAlike
      · intro value operand
        cases cache.relates value operand with
        | ok alike => exact .flag _
        | error failure => exact .failed failure failure
      · rfl
      · intro value _
        rfl
      · intro value _
        cases value <;> rfl
  | compare comparison =>
      rw [evaluateWith, evaluateWith]
      apply leftAlike.bind_test rightAlike
      · intro value other
        exact .flag _
      · rw [Comparison.holds_congr (compare?_element_self entity fields)]
      · intro value smaller
        rw [Comparison.holds_congr (compare?_element_part entity fields smaller).1]
      · intro value smaller
        rw [Comparison.holds_congr (compare?_element_part entity fields smaller).2]

theorem evaluateWith_alike (cache : Like.Cache) (entity : String)
    {fields : List (String × Value)} {expression : Expr}
    (covered : ∀ name ∈ expression.fields, name ∈ Fields.names fields) :
    Alike entity fields (expression.evaluateWith cache (.entity entity fields))
      (expression.evaluateWith cache (.record fields)) := by
  induction expression with
  | literal value =>
      refine .part value.toValue ?_
      cases value <;> exact Nat.succ_pos _
  | parameter position =>
      by_cases element : position = 0
      · simp only [evaluateWith, element, if_true]
        exact .element
      · simp only [evaluateWith, element, if_false]
        exact .failed _ _
  | property object name inductionHypothesis =>
      rw [evaluateWith, evaluateWith]
      by_cases element : object = .parameter 0
      · subst element
        simp only [evaluateWith, if_true, Outcome.ok_bind]
        exact alike_field (covered name (by simp [Expr.fields, addFields]))
      · rw [fields_property_of_ne element] at covered
        apply (inductionHypothesis covered).bind_field
        intro value evaluated
        exact size_lt_of_evaluateWith (Nat.succ_pos _) element evaluated
  | not operand inductionHypothesis =>
      rw [evaluateWith, evaluateWith]
      exact (inductionHypothesis covered).bind_condition fun holds => .flag !holds
  | binary operator left right leftHypothesis rightHypothesis =>
      apply alike_binary operator
      · exact leftHypothesis fun name member =>
          covered name (mem_fields_binary.mpr (.inl member))
      · exact rightHypothesis fun name member =>
          covered name (mem_fields_binary.mpr (.inr member))

/-- As a condition an expression holds for an entity if it holds for a record of its fields. -/
theorem accepts_compile_alike (entity : String) {fields : List (String × Value)}
    {expression : Expr} (covered : ∀ name ∈ expression.fields, name ∈ Fields.names fields)
    (holds : Bool) :
    expression.compile.accepts (.entity entity fields) = .ok holds ↔
      expression.compile.accepts (.record fields) = .ok holds :=
  (evaluateWith_alike _ entity covered).condition holds

end Expr

end EntityCursor
