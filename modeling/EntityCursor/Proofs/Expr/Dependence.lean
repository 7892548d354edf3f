import EntityCursor.Proofs.Cursor.Building
import EntityCursor.Proofs.Expr.Narrowing
import EntityCursor.Proofs.Expr.Patterns
import EntityCursor.Proofs.Pipeline.Columns
import EntityCursor.Proofs.Pipeline.Refinement

/-!
What an expression depends on. As long as it does not hand on the element itself, it tells no two
elements apart that show the same under the fields it reads, be they entities or records: it accepts
both, refuses both or fails alike. Filtering entities and narrowing them to columns that have these
fields may therefore change places.
-/

namespace EntityCursor

namespace Value

/-- An entity, or a record that has all of the listed fields. -/
inductive Offers (names : List String) : Value → Prop where
  | entity (name : String) (fields : List (String × Value)) : Offers names (.entity name fields)
  | record {fields : List (String × Value)} :
      (∀ name ∈ names, name ∈ Fields.names fields) → Offers names (.record fields)

def shown (element : Value) (name : String) : Value :=
  match element with
  | .entity _ fields => (Fields.get? name fields).getD .null
  | .record fields => (Fields.get? name fields).getD .null
  | _ => .null

variable {names : List String} {element : Value} {name : String}

theorem Offers.fieldOrNull_eq (offers : element.Offers names) (listed : name ∈ names) :
    element.fieldOrNull name = .ok (element.shown name) := by
  cases offers with
  | entity => rfl
  | record has =>
      obtain ⟨value, found⟩ :=
        Option.isSome_iff_exists.mp (Fields.get?_isSome_iff_mem_names.mpr (has name listed))
      simp [fieldOrNull, field?, shown, found]

end Value

namespace Expr

/-- The element occurs in an expression only as what a property is read of. -/
inductive ReadsFieldsOnly : Expr → Prop where
  | literal (value : Literal) : ReadsFieldsOnly (.literal value)
  | unbound {position : Nat} : position ≠ 0 → ReadsFieldsOnly (.parameter position)
  | field (name : String) : ReadsFieldsOnly (.field name)
  | property {object : Expr} (name : String) :
      ReadsFieldsOnly object → ReadsFieldsOnly (.property object name)
  | not {operand : Expr} : ReadsFieldsOnly operand → ReadsFieldsOnly (.not operand)
  | binary {left right : Expr} (operator : BinaryOperator) :
      ReadsFieldsOnly left → ReadsFieldsOnly right →
      ReadsFieldsOnly (.binary operator left right)

theorem ReadsFieldsOnly.ne_element {expression : Expr} (fieldsOnly : expression.ReadsFieldsOnly) :
    expression ≠ .element := by
  rintro rfl
  cases fieldsOnly with
  | unbound bound => exact bound rfl

theorem evaluateWith_of_agree (cache : Like.Cache) {expression : Expr}
    (fieldsOnly : expression.ReadsFieldsOnly) {left right : Value}
    (agree : ∀ name ∈ expression.fields, left.fieldOrNull name = right.fieldOrNull name) :
    expression.evaluateWith cache left = expression.evaluateWith cache right := by
  induction fieldsOnly with
  | literal value => rfl
  | unbound bound => rw [evaluateWith, evaluateWith, if_neg bound, if_neg bound]
  | field name => exact agree name (by simp [field, element, fields, addFields])
  | @property object name objectFields inductionHypothesis =>
      -- A property of something other than the element adds no field to read.
      rw [fields_property_of_ne objectFields.ne_element] at agree
      rw [evaluateWith, evaluateWith, inductionHypothesis agree]
  | not _ inductionHypothesis =>
      rw [evaluateWith, evaluateWith, inductionHypothesis agree]
  | binary operator _ _ leftHypothesis rightHypothesis =>
      have leftSame := leftHypothesis fun name member =>
        agree name (mem_fields_binary.mpr (.inl member))
      have rightSame := rightHypothesis fun name member =>
        agree name (mem_fields_binary.mpr (.inr member))
      cases operator <;> rw [evaluateWith, evaluateWith, leftSame, rightSame]

theorem acceptsBy_of_agree (engine : RegexEngine) {expression : Expr}
    (fieldsOnly : expression.ReadsFieldsOnly) {left right : Value}
    (leftOffers : left.Offers expression.fields) (rightOffers : right.Offers expression.fields)
    (agree : ∀ name ∈ expression.fields, left.shown name = right.shown name) :
    expression.acceptsBy engine left = expression.acceptsBy engine right := by
  have same : ∀ name ∈ expression.fields, left.fieldOrNull name = right.fieldOrNull name := by
    intro name listed
    rw [leftOffers.fieldOrNull_eq listed, rightOffers.fieldOrNull_eq listed, agree name listed]
  rw [acceptsBy, acceptsBy, evaluateWith_of_agree _ fieldsOnly same]

theorem acceptsBy_project (engine : RegexEngine) {expression : Expr}
    (fieldsOnly : expression.ReadsFieldsOnly) {columns : List String}
    (covered : ∀ name ∈ expression.fields, name ∈ columns) (entity : Entity) :
    expression.acceptsBy engine (.record (entity.project columns)) =
      expression.acceptsBy engine entity.toValue := by
  have exact := entity.hasExactly_project columns
  apply acceptsBy_of_agree engine fieldsOnly
  · exact .record fun name listed => (exact.hasNames.mem_names name).mpr (covered name listed)
  · exact .entity entity.name entity.fields
  · intro name listed
    simp only [Value.shown, exact.get?_eq, covered name listed, if_true, Option.getD_some]
    rfl

end Expr

namespace Puller

variable {State World Mark : Type} {source : Puller State World} {mark : State → World → Mark}
  {state : State} {world : World} {course : Course Value Mark}

/-- A filter that does not look beyond the columns changes places with the projection. -/
theorem Runs.project_filter_iff (runs : source.Runs mark state world course)
    (entities : ∀ pair ∈ course.elements, ∃ entity : Entity, pair.1 = entity.toValue)
    {columns : List String} {predicate : Predicate} (expression : Expr)
    (sameVerdict : ∀ entity : Entity,
      predicate (.record (entity.project columns)) = predicate entity.toValue)
    (taken : Course Value Mark) :
    (source.stack [.project columns, .expressionFilter predicate expression]).Runs
        (fun running world => mark running.base world) (Running.start state _) world taken ↔
      (source.stack [.expressionFilter predicate expression, .project columns]).Runs
        (fun running world => mark running.base world) (Running.start state _) world taken := by
  have filteredFirst := runs.stack [.project columns, .expressionFilter predicate expression]
  have projectedFirst := runs.stack [.expressionFilter predicate expression, .project columns]
  have same : course.through [.project columns, .expressionFilter predicate expression] =
      course.through [.expressionFilter predicate expression, .project columns] := by
    apply Course.attempt_keep
    intro pair member
    obtain ⟨entity, isEntity⟩ := entities pair member
    exact ⟨.record (entity.project columns), isEntity ▸ rfl, isEntity ▸ sameVerdict entity⟩
  rw [same] at filteredFirst
  constructor
  · intro runsTaken
    rw [filteredFirst.unique runsTaken]
    exact projectedFirst
  · intro runsTaken
    rw [projectedFirst.unique runsTaken]
    exact filteredFirst

end Puller

namespace Expr

/-- An expression that reads fields only comes to the same on elements that offer these fields and
show the same under them. Entities that are narrowed to columns with these fields may therefore be
filtered before or after it: building does not refuse the later filter, and the same elements are
delivered, with the same failures and the same use of the source. -/
theorem accepts_depends_on_fields (engine : RegexEngine) {expression : Expr}
    (fieldsOnly : expression.ReadsFieldsOnly) :
    (∀ left right : Value, left.Offers expression.fields → right.Offers expression.fields →
      (∀ name ∈ expression.fields, left.shown name = right.shown name) →
        expression.acceptsBy engine left = expression.acceptsBy engine right) ∧
    ∀ compiled, expression.compileBy engine = .ok compiled →
    ∀ columns : List String, (∀ name ∈ expression.fields, name ∈ columns) →
      (∀ cursor : Cursor, (cursor.select columns).requireSelected expression.fields = .ok ()) ∧
      ∀ {State World Mark : Type} (source : Puller State World) (mark : State → World → Mark)
        (state : State) (world : World) (course : Course Value Mark),
        source.Runs mark state world course →
        (∀ pair ∈ course.elements, ∃ entity : Entity, pair.1 = entity.toValue) →
        ∀ taken : Course Value Mark,
          (source.stack [.project columns, .expressionFilter compiled.accepts expression]).Runs
              (fun running world => mark running.base world) (Running.start state _) world taken ↔
            (source.stack [.expressionFilter compiled.accepts expression, .project columns]).Runs
              (fun running world => mark running.base world) (Running.start state _) world
              taken := by
  refine ⟨?_, ?_⟩
  · intro left right leftOffers rightOffers agree
    exact acceptsBy_of_agree engine fieldsOnly leftOffers rightOffers agree
  · intro compiled compiles columns covered
    refine ⟨fun cursor => cursor.requireSelected_select covered, ?_⟩
    intro State World Mark source mark state world course runs entities taken
    apply runs.project_filter_iff entities
    intro entity
    rw [accepts_of_compileBy compiles, accepts_of_compileBy compiles]
    exact acceptsBy_project engine fieldsOnly covered entity

def atHome : Expr :=
  .binary .or
    (.binary .and
      (.binary (.like false) (.property (.field "home") "city") (.literal (.string "B%")))
      (.not (.equals (.field "age") (.literal .null))))
    (.parameter 1)

def ada : Entity := ⟨"Person", [("home", .record [("city", .string "Bonn")])]⟩

theorem atHome_depends_on_fields :
    atHome.ReadsFieldsOnly ∧ atHome.fields = ["home", "age"] ∧
    atHome.acceptsBy .builtIn ada.toValue =
      atHome.acceptsBy .builtIn
        (.record [("age", .null), ("home", .record [("city", .string "Bonn")])]) ∧
    ∀ taken : Course Value (List Value),
      ((Puller.listing none).stack
          [.project ["age", "home"], .expressionFilter atHome.compile.accepts atHome]).Runs
          (fun running _ => running.base) (Running.start [ada.toValue] _) () taken ↔
        ((Puller.listing none).stack
          [.expressionFilter atHome.compile.accepts atHome, .project ["age", "home"]]).Runs
          (fun running _ => running.base) (Running.start [ada.toValue] _) () taken := by
  have fieldsOnly : atHome.ReadsFieldsOnly :=
    .binary _
      (.binary _ (.binary _ (.property _ (.field _)) (.literal _))
        (.not (.binary _ (.field _) (.literal _))))
      (.unbound (by decide))
  have fieldsOfHome : atHome.fields = ["home", "age"] := by decide
  obtain ⟨dependence, exchange⟩ := accepts_depends_on_fields .builtIn fieldsOnly
  refine ⟨fieldsOnly, fieldsOfHome, ?_, ?_⟩
  · refine dependence _ _ (.entity _ _) (.record ?_) ?_
    · rw [fieldsOfHome]
      decide
    · rw [fieldsOfHome]
      intro name listed
      rcases List.mem_pair.mp listed with rfl | rfl <;> rfl
  · have covered : ∀ name ∈ atHome.fields, name ∈ ["age", "home"] := by
      rw [fieldsOfHome]
      decide
    apply (exchange _ (compileBy_builtIn atHome) _ covered).2 _ (fun rest _ => rest) _ _ _
      (Puller.runs_listing none [ada.toValue] ())
    intro pair member
    rw [List.mem_singleton.mp member]
    exact ⟨ada, rfl⟩

/-- Both fail alike. -/
example : atHome.acceptsBy .builtIn ada.toValue =
    .error (.invalidFilter (.unboundParameter 1)) := by
  rfl

end Expr

end EntityCursor
