import EntityCursor.Channel.TableEngine
import EntityCursor.Proofs.Descriptor.Rows

/-!
Comparisons with dates and bytes. The remote engine compares a document with a literal as the two
are written, while a materialized entity has the moment or the bytes that the document denotes. Both
orders are written down here without reference to either side, and the truth value of a comparison
is the same on both sides exactly if the comparison does not tell the two orders apart. Two
spellings of one moment show that it can.
-/

namespace EntityCursor

/-- Whether a comparison holds of values in the given order. Values without order are not
comparable. -/
def Comparison.holdsOf : Comparison → Option Ordering → Bool
  | .equal, order => order == some .eq
  | .notEqual, order => order != some .eq
  | .less, order => order == some .lt
  | .lessOrEqual, order => order == some .lt || order == some .eq
  | .greater, order => order == some .gt
  | .greaterOrEqual, order => order == some .gt || order == some .eq

theorem Comparison.holds_eq_holdsOf (comparison : Comparison) (left right : Value) :
    comparison.holds left right = comparison.holdsOf (left.compare? right) := by
  cases comparison <;> rfl

def Comparison.ofField (comparison : Comparison) (name : String) (literal : Literal) : Expr :=
  .binary (.compare comparison) (.field name) (.literal literal)

/-- The moment that a literal denotes: a date text or a number of milliseconds. -/
def Literal.moment? : Literal → Option Moment
  | .string text => Moment.read? text
  | .number real => Moment.ofMilliseconds? real
  | .bool _ => none
  | .null => none

namespace Json

def moment? : Json → Option Moment
  | .string text => Moment.read? text
  | document => document.toBinary64?.bind Moment.ofMilliseconds?

/-- The order of a document and a literal as they are written. Only texts are compared with texts,
and only numbers with numbers. -/
def writtenOrder? : Json → Literal → Option Ordering
  | .null, .null => some .eq
  | .bool left, .bool right => some (compare left right)
  | .integer left, .number right => (Binary64.ofInt left).compare? right
  | .double left, .number right => left.compare? right
  | .string left, .string right => some (compare left right)
  | _, _ => none

end Json

/-- The order of what a document of a date or of bytes denotes and of a literal. A date is compared
with the moment that the literal denotes, and there is no literal that bytes compare with. -/
def FieldKind.denotedOrder? (kind : FieldKind) (document : Json) (literal : Literal) :
    Option Ordering :=
  match kind, document with
  | _, .null => if literal = .null then some .eq else none
  | .date, document => do
      let moment ← document.moment?
      let other ← literal.moment?
      return compare moment other
  | _, _ => none

namespace Value

theorem compare?_ofJson (document : Json) (literal : Literal) :
    (ofJson document).compare? literal.toValue = document.writtenOrder? literal := by
  cases document <;> cases literal <;> rfl

theorem compare?_null (literal : Literal) :
    Value.null.compare? literal.toValue = if literal = .null then some .eq else none := by
  cases literal <;> rfl

theorem compare?_date (moment : Moment) (literal : Literal) :
    (date moment).compare? literal.toValue = literal.moment?.map (compare moment) := by
  cases literal <;> rfl

theorem compare?_bytes (content : List UInt8) (literal : Literal) :
    (bytes content).compare? literal.toValue = none := by
  cases literal <;> rfl

end Value

namespace Registry

variable {registry : Registry} {entity : String} {descriptor : EntityDescriptor}

theorem scalarOfJson?_date (document : Json) :
    scalarOfJson? .date document = document.moment?.map .date := by
  cases document <;> rfl

theorem scalar_of_convert {place : Place} (typed : place.kind = .date ∨ place.kind = .bytes)
    {document : Json} {value : Value} (converted : registry.convert place document = .ok value) :
    (document = .null ∧ value = .null) ∨
      (document ≠ .null ∧ scalarOfJson? place.kind document = some value) := by
  cases document with
  | null =>
      rw [convert] at converted
      split at converted
      · cases converted
        exact .inl ⟨rfl, rfl⟩
      · cases converted
  | object members =>
      rw [convert] at converted
      rcases typed with date | bytes
      · rw [date] at converted
        cases converted
      · rw [bytes] at converted
        cases converted
  | array items =>
      rw [convert] at converted
      refine .inr ⟨by simp, ?_⟩
      split at converted
      · next element kind =>
          rw [kind] at typed
          rcases typed with date | bytes
          · cases date
          · cases bytes
      · exact scalar_of_converted converted
  | _ =>
      rw [convert] at converted
      · exact .inr ⟨by simp, scalar_of_converted converted⟩
      all_goals simp

/-- Typed values are in the order of what their documents denote. -/
theorem compare?_of_convert {place : Place} {document : Json} {value : Value}
    (converted : registry.convert place document = .ok value)
    (typed : place.kind = .date ∨ place.kind = .bytes) (literal : Literal) :
    value.compare? literal.toValue = place.kind.denotedOrder? document literal := by
  rcases scalar_of_convert typed converted with ⟨absent, same⟩ | ⟨present, scalar⟩
  · rw [absent, same, Value.compare?_null, FieldKind.denotedOrder?]
  · rcases typed with isDate | isBytes
    · rw [isDate] at scalar ⊢
      rw [scalarOfJson?_date] at scalar
      obtain ⟨moment, denoted, same⟩ := Option.map_eq_some_iff.mp scalar
      rw [← same, Value.compare?_date, FieldKind.denotedOrder?, denoted]
      · cases literal.moment? <;> rfl
      · exact present
    · rw [isBytes] at scalar ⊢
      obtain ⟨content, same⟩ := scalarOfJson?_bytes scalar
      rw [same, Value.compare?_bytes]
      cases document with
      | null => exact absurd rfl present
      | _ => rfl

end Registry

namespace Comparison

theorem accepts_ofField (comparison : Comparison) (name : String) (literal : Literal)
    (entity : String) {fields : List (String × Value)} {value : Value}
    (found : Fields.get? name fields = some value) :
    (comparison.ofField name literal).compile.accepts (.entity entity fields) =
      .ok (comparison.holdsOf (value.compare? literal.toValue)) := by
  rw [← holds_eq_holdsOf]
  simp [ofField, Expr.field, Expr.element, Expr.compile, CompiledExpr.accepts, Expr.evaluateWith,
    Value.fieldOrNull, Value.field?, found, Value.condition?, bind, Except.bind, pure, Except.pure]

/-- Pushing a comparison of a date or of bytes with a literal keeps its truth value exactly if the
field is the identifier, which is never typed, or if the comparison holds alike of the documents as
they are written and of what they denote. -/
theorem accepts_untyped_eq_typed_iff {registry : Registry} {entity : String}
    {descriptor : EntityDescriptor} {row : Row} {assembled : Entity} {name : String}
    {field : FieldDescriptor} {document : Json}
    (registered : registry.get? entity = some descriptor)
    (materialized : registry.materialize entity row = .ok assembled)
    (declared : descriptor.field? name = some field)
    (typed : field.kind = .date ∨ field.kind = .bytes)
    (present : Fields.get? name row = some document)
    (comparison : Comparison) (literal : Literal) :
    ∃ pushed kept : Bool,
      (comparison.ofField name literal).compile.accepts (TableEngine.untypedElement entity row) =
        .ok pushed ∧
      (comparison.ofField name literal).compile.accepts assembled.toValue = .ok kept ∧
      (pushed = kept ↔ name = idField ∨
        comparison.holdsOf (document.writtenOrder? literal) =
          comparison.holdsOf (field.kind.denotedOrder? document literal)) := by
  have written : Fields.get? name (Value.ofJsonMembers row) = some (Value.ofJson document) := by
    rw [Value.get?_ofJsonMembers, present, Option.map_some]
  have pushed := accepts_ofField comparison name literal entity written
  rw [Registry.materialize, registered] at materialized
  -- Only a declared member is typed: the identifier is taken over, and the field is not missing.
  rcases Registry.get?_of_assembled materialized name with
    ⟨identifies, found⟩ | ⟨different, _, _, value, sameField, sameMember, converted, found⟩ |
      ⟨_, missing, _⟩
  · rw [present, Option.map_some] at found
    have kept := accepts_ofField comparison name literal assembled.name found
    exact ⟨_, _, pushed, kept, fun _ => .inl identifies, fun _ => rfl⟩
  · cases Option.some.inj (declared.symm.trans sameField)
    cases Option.some.inj (present.symm.trans sameMember)
    have kept := accepts_ofField comparison name literal assembled.name found
    have order : value.compare? literal.toValue = field.kind.denotedOrder? document literal :=
      Registry.compare?_of_convert converted typed literal
    rw [Value.compare?_ofJson] at pushed
    rw [order] at kept
    refine ⟨_, _, pushed, kept, .inr, ?_⟩
    rintro (identifies | alike)
    · exact absurd identifies different
    · exact alike
  · simp [declared, present] at missing

def births : Registry :=
  ⟨[("Person", ⟨"Person", [{ name := "born", kind := .date }]⟩)]⟩

def bornOn (text : String) : Row := [("born", .string text)]

def bornInMarch : Entity := ⟨"Person", [("born", .date ⟨1646092800, 0⟩)]⟩

/-- Dates in one spelling are compared alike as texts and as moments. -/
theorem accepts_same_spelling :
    births.materialize "Person" (bornOn "2022-03-01T00:00:00Z") = .ok bornInMarch ∧
    (ofField .less "born" (.string "2022-03-02T00:00:00Z")).compile.accepts
        (TableEngine.untypedElement "Person" (bornOn "2022-03-01T00:00:00Z")) =
      (ofField .less "born" (.string "2022-03-02T00:00:00Z")).compile.accepts
        bornInMarch.toValue := by
  have materialized :
      births.materialize "Person" (bornOn "2022-03-01T00:00:00Z") = .ok bornInMarch := rfl
  have registered : births.get? "Person" =
      some ⟨"Person", [{ name := "born", kind := .date }]⟩ := rfl
  have declared : EntityDescriptor.field? ⟨"Person", [{ name := "born", kind := .date }]⟩ "born" =
      some { name := "born", kind := .date } := rfl
  have present : Fields.get? "born" (bornOn "2022-03-01T00:00:00Z") =
      some (.string "2022-03-01T00:00:00Z") := rfl
  obtain ⟨pushed, kept, remote, process, alike⟩ :=
    accepts_untyped_eq_typed_iff registered materialized declared (.inl rfl) present .less
      (.string "2022-03-02T00:00:00Z")
  refine ⟨materialized, ?_⟩
  rw [remote, process, alike.mpr (.inr (by decide +kernel))]

/-- A pushed comparison loses the row whose date is spelled otherwise than the literal. -/
theorem accepts_other_spelling :
    births.materialize "Person" (bornOn "2022-03-01") = .ok bornInMarch ∧
    (ofField .equal "born" (.string "2022-03-01T00:00:00Z")).compile.accepts
      (TableEngine.untypedElement "Person" (bornOn "2022-03-01")) = .ok false ∧
    (ofField .equal "born" (.string "2022-03-01T00:00:00Z")).compile.accepts
      bornInMarch.toValue = .ok true :=
  ⟨rfl, rfl, rfl⟩

end Comparison

end EntityCursor
