import EntityCursor.Filter.Restriction
import EntityCursor.Proofs.Descriptor.Rereading
import EntityCursor.Proofs.Filter.Meaning
import EntityCursor.Proofs.Value.Order

/-!
Restrictions as equalities. A restriction asks its fields to equal the values that it gives them,
and what it compiles to asks them to equal these values as literals. Most values are literals
themselves, but a date becomes its text. The text is read as a date again when it is compared with
one, so that the two conditions differ where reading the text does not give the date back, and where
the field holds a text or a number that is only equal to the date.
-/

namespace EntityCursor

namespace Value

def asLiteral : Value → Value
  | .date moment => .string moment.text
  | value => value

theorem toValue_of_ofValue {value : Value} {literal : Literal}
    (success : Literal.ofValue value = .ok literal) : literal.toValue = value.asLiteral := by
  cases value with
  | bytes content => cases success
  | array items => cases success
  | record fields => cases success
  | entity name fields => cases success
  | _ =>
      cases success
      rfl

/-- Whether a value equals a moment exactly if it equals the text of the moment. -/
def ReadsAlike (moment : Moment) : Value → Prop
  | .date other => Moment.read? moment.text = some other ↔ other = moment
  | .string text => text = moment.text ↔ Moment.read? text = some moment
  | .number real => Moment.ofMilliseconds? real ≠ some moment
  | _ => True

/-- A moment that is written with nothing left out is told from other moments by its text. -/
theorem readsAlike_of_printable {moment : Moment} (proper : moment.Proper)
    (printable : moment.Printable) (other : Moment) : (date other).ReadsAlike moment := by
  rw [ReadsAlike, Moment.read?_text_of_printable proper printable, Option.some.injEq]
  exact eq_comm

/-! When a value is equal to a moment. -/

@[simp]
theorem equals_date_date {moment other : Moment} :
    (date other).equals (.date moment) = true ↔ other = moment := by
  rw [equals, compare?, beq_iff_eq, Option.some.injEq, Std.LawfulEqOrd.compare_eq_iff_eq]

@[simp]
theorem equals_date_string {other : Moment} {text : String} :
    (date other).equals (.string text) = true ↔ Moment.read? text = some other := by
  change ((Moment.read? text).map (compare other) == some .eq) = true ↔ _
  cases Moment.read? text with
  | none => simp
  | some read =>
      rw [Option.map_some, beq_iff_eq, Option.some.injEq, Option.some.injEq,
        Std.LawfulEqOrd.compare_eq_iff_eq]
      exact eq_comm

@[simp]
theorem equals_string_string {text other : String} :
    (string text).equals (.string other) = true ↔ text = other := by
  rw [equals, compare?, beq_iff_eq, Option.some.injEq, Std.LawfulEqOrd.compare_eq_iff_eq]

/-- Values that are no dates are equal to a date if they denote it. -/
theorem equals_date {held : Value} {moment : Moment} (noDate : ∀ other, held ≠ .date other) :
    held.equals (.date moment) = true ↔ held.toMoment? = some moment := by
  have coerced : held.compare? (.date moment) =
      held.toMoment?.map fun other => compare other moment := by
    cases held with
    | date other => exact absurd rfl (noDate other)
    | _ => rfl
  rw [equals, coerced]
  cases held.toMoment? with
  | none => simp
  | some other => simp

theorem equals_text_eq_equals_date_iff (held : Value) (moment : Moment) :
    held.equals (.string moment.text) = held.equals (.date moment) ↔ held.ReadsAlike moment := by
  rw [Bool.eq_iff_iff]
  cases held with
  | date other => rw [equals_date_string, equals_date_date, ReadsAlike]
  | string text => rw [equals_string_string, equals_date (by simp), ReadsAlike, toMoment?]
  | number real =>
      have differs : (number real).equals (.string moment.text) = false := rfl
      rw [differs, equals_date (by simp), ReadsAlike, toMoment?]
      simp
  | _ => exact iff_of_true Iff.rfl trivial

end Value

namespace Restriction

variable {restriction : Restriction} {element : Value}

/-- A field that is given a value can be read and is equal to it. -/
def entryHolds (element : Value) : String × Option Value → Bool
  | (_, none) => true
  | (field, some value) =>
      match element.fieldOrNull field with
      | .ok held => held.equals value
      | .error _ => false

def holds (restriction : Restriction) (element : Value) : Bool :=
  restriction.all (entryHolds element)

def asLiterals (restriction : Restriction) : Restriction :=
  restriction.map fun (field, given) => (field, given.map Value.asLiteral)

theorem accepts_equals_field {field : String} {held : Value}
    (reads : element.fieldOrNull field = .ok held) (literal : Literal) :
    (Expr.equals (.field field) (.literal literal)).accepts element =
      .ok (held.equals literal.toValue) := by
  have atEnd : element.valueAt [field] = .ok held := by
    rw [Value.valueAt, List.foldlM_cons, reads]
    rfl
  exact Filter.accepts_binary "$eq" rfl atEnd literal

theorem selects_equalities {equalities : List Expr}
    (read : restriction.equalities = .ok equalities)
    (readable : ∀ field ∈ restriction.fields, ∃ held, element.fieldOrNull field = .ok held) :
    Filter.selects (Expr.conjunction? equalities) element =
      .ok (restriction.asLiterals.holds element) := by
  induction restriction generalizing equalities with
  | nil =>
      cases read
      rfl
  | cons entry rest inductionHypothesis =>
      obtain ⟨field, _ | value⟩ := entry
      · exact inductionHypothesis read readable
      · rw [Restriction.equalities] at read
        obtain ⟨literal, success, read⟩ := Outcome.bind_eq_ok.mp read
        obtain ⟨others, readRest, combined⟩ := Outcome.bind_eq_ok.mp read
        cases combined
        obtain ⟨held, reads⟩ := readable field List.mem_cons_self
        have decided : Filter.selects (some (Expr.equals (.field field) (.literal literal)))
            element = .ok (held.equals value.asLiteral) := by
          rw [← Value.toValue_of_ofValue success]
          exact accepts_equals_field reads literal
        have later := inductionHypothesis readRest fun other member =>
          readable other (List.mem_cons_of_mem _ member)
        have joined := Filter.selects_conjunction?_append decided later
        have first : holds (asLiterals ((field, some value) :: rest)) element =
            (held.equals value.asLiteral && holds (asLiterals rest) element) := by
          simp [holds, asLiterals, entryHolds, reads]
        rw [first]
        exact joined

theorem entryHolds_asLiteral_iff (element : Value) (field : String) (given : Option Value) :
    entryHolds element (field, given.map Value.asLiteral) = entryHolds element (field, given) ↔
      ∀ moment held, given = some (.date moment) → element.fieldOrNull field = .ok held →
        held.ReadsAlike moment := by
  cases given with
  | none => simp
  | some value =>
      cases value with
      | date moment =>
          rw [Option.map_some, Value.asLiteral, entryHolds, entryHolds]
          cases element.fieldOrNull field with
          | error failure => simp
          | ok held => simp [Value.equals_text_eq_equals_date_iff]
      | _ => simp [Value.asLiteral]

/-- Two tests of all entries agree if they agree on each entry, or if each of them fails on some. -/
theorem all_eq_all_iff {Entry : Type} (first second : Entry → Bool) (entries : List Entry) :
    entries.all first = entries.all second ↔
      (∀ entry ∈ entries, first entry = second entry) ∨
        (entries.all first = false ∧ entries.all second = false) := by
  constructor
  · intro same
    cases passed : entries.all first with
    | false => exact .inr ⟨rfl, same.symm.trans passed⟩
    | true =>
        have passedToo := same.symm.trans passed
        rw [List.all_eq_true] at passed passedToo
        exact .inl fun entry member => (passed entry member).trans (passedToo entry member).symm
  · rintro (same | ⟨firstFails, secondFails⟩)
    · rw [Bool.eq_iff_iff, List.all_eq_true, List.all_eq_true]
      exact forall₂_congr fun entry member => by rw [same entry member]
    · rw [firstFails, secondFails]

theorem holds_asLiterals_eq_holds_iff (restriction : Restriction) (element : Value) :
    restriction.asLiterals.holds element = restriction.holds element ↔
      (∀ field moment held, (field, some (.date moment)) ∈ restriction →
        element.fieldOrNull field = .ok held → held.ReadsAlike moment) ∨
      (restriction.asLiterals.holds element = false ∧ restriction.holds element = false) := by
  have literals : restriction.asLiterals.holds element = restriction.all fun entry =>
      entryHolds element (entry.1, entry.2.map Value.asLiteral) := by
    rw [holds, asLiterals, List.all_map]
    rfl
  rw [literals, holds, all_eq_all_iff]
  apply or_congr_left
  simp only [Prod.forall, entryHolds_asLiteral_iff]
  constructor
  · intro alike field moment held member reads
    exact alike field _ member moment held rfl reads
  · rintro alike field _ member moment held rfl reads
    exact alike field moment held member reads

/-- What a restriction compiles to asks the fields to equal the values as literals. On an element
whose fields can be read that is to ask them to equal the values themselves exactly if every date
reads alike as its text, or if the element is refused either way. -/
theorem compile_means_equality_iff {condition : Option Expr}
    (compiled : restriction.compile = .ok condition)
    (readable : ∀ field ∈ restriction.fields, ∃ held, element.fieldOrNull field = .ok held) :
    Filter.selects condition element = .ok (restriction.asLiterals.holds element) ∧
    (restriction.asLiterals.holds element = restriction.holds element ↔
      (∀ field moment held, (field, some (.date moment)) ∈ restriction →
        element.fieldOrNull field = .ok held → held.ReadsAlike moment) ∨
      (restriction.asLiterals.holds element = false ∧ restriction.holds element = false)) := by
  obtain ⟨equalities, read, combined⟩ := Outcome.bind_eq_ok.mp compiled
  cases combined
  exact ⟨selects_equalities read readable, holds_asLiterals_eq_holds_iff restriction element⟩

/-- The first of March 2022, and a moment half a millisecond later. -/
def firstOfMarch : Moment := ⟨1646092800, 0⟩
def halfMillisecondLater : Moment := ⟨1646092800, 500000⟩

def bornOn (moment : Moment) : Restriction :=
  [("born", some (.date moment)), ("nick", none), ("name", some (.string "Ada"))]

def adaBornOn (moment : Moment) : Value :=
  .entity "Person" [("born", .date moment), ("name", .string "Ada")]

def asLiteralExpr (moment : Moment) : Expr :=
  .binary .and (.equals (.field "born") (.literal (.string moment.text)))
    (.equals (.field "name") (.literal (.string "Ada")))

theorem selects_person_of_own_birth :
    (bornOn firstOfMarch).compile = .ok (some (asLiteralExpr firstOfMarch)) ∧
    (bornOn firstOfMarch).holds (adaBornOn firstOfMarch) = true ∧
    (asLiteralExpr firstOfMarch).accepts (adaBornOn firstOfMarch) = .ok true := by
  have compiled : (bornOn firstOfMarch).compile =
      .ok (some (asLiteralExpr firstOfMarch)) := rfl
  have readable : ∀ field ∈ (bornOn firstOfMarch).fields,
      ∃ held, (adaBornOn firstOfMarch).fieldOrNull field = .ok held := by
    intro field _
    exact ⟨_, rfl⟩
  have holds : (bornOn firstOfMarch).holds (adaBornOn firstOfMarch) = true := rfl
  obtain ⟨decided, agree⟩ := compile_means_equality_iff compiled readable
  have proper : firstOfMarch.Proper := ⟨by decide, by decide⟩
  have printable : firstOfMarch.Printable := ⟨rfl, by decide, by decide⟩
  have alike : ∀ field moment held, (field, some (.date moment)) ∈ bornOn firstOfMarch →
      (adaBornOn firstOfMarch).fieldOrNull field = .ok held → held.ReadsAlike moment := by
    intro field moment held member reads
    obtain ⟨rfl, rfl⟩ : field = "born" ∧ moment = firstOfMarch := by
      simpa [bornOn] using member
    cases reads
    exact Value.readsAlike_of_printable proper printable firstOfMarch
  rw [agree.mpr (.inl alike), holds] at decided
  exact ⟨compiled, holds, decided⟩

/-- The text of a date leaves out half a millisecond, and the restriction refuses the very element
that has the date. -/
theorem refuses_person_of_own_birth :
    (bornOn halfMillisecondLater).compile = .ok (some (asLiteralExpr halfMillisecondLater)) ∧
    (bornOn halfMillisecondLater).holds (adaBornOn halfMillisecondLater) = true ∧
    (asLiteralExpr halfMillisecondLater).accepts (adaBornOn halfMillisecondLater) = .ok false :=
  ⟨rfl, rfl, rfl⟩

end Restriction

end EntityCursor
