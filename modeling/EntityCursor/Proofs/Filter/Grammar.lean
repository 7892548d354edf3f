import EntityCursor.Proofs.Filter.Refusals
import EntityCursor.Proofs.Json

/-!
The grammar of filter documents, written down without reference to compiling. A document is an
object, and what may stand in an object depends on the field that the object is about and on its
nesting level. Compiling succeeds exactly for the well-formed documents, although it counts levels
in three different places, and it refuses all others as invalid filters.
-/

namespace EntityCursor

namespace Filter

def operators : List String :=
  ["$eq", "$ne", "$gt", "$gte", "$lt", "$lte", "$like", "$notLike"]

/-- A name with a dollar sign in front is not the name of a field. -/
def IsReserved (name : String) : Prop :=
  name.toList.head? = some '$'

mutual

/-- The objects about the field at `path` on a nesting level. -/
inductive WellFormed : (path : List String) → (level : Nat) → Json → Prop where
  | object {path : List String} {level : Nat} {members : List (String × Json)} :
      level ≤ 100 →
      (∀ name value, (name, value) ∈ members → WellFormedEntry path level name value) →
        WellFormed path level (.object members)

inductive WellFormedEntry : (path : List String) → (level : Nat) → String → Json → Prop where
  | combination {path : List String} {level : Nat} {connective : String} {items : List Json} :
      connective = "$and" ∨ connective = "$or" →
      (∀ item ∈ items, WellFormed path (level + 1) item) →
        WellFormedEntry path level connective (.array items)
  | negation {path : List String} {level : Nat} {negated : Json} :
      WellFormed path (level + 1) negated → WellFormedEntry path level "$not" negated
  | comparison {path : List String} {level : Nat} {operator : String} {operand : Json} :
      operator ∈ operators → path ≠ [] → operand.IsScalar →
        WellFormedEntry path level operator operand
  | equality {path : List String} {level : Nat} {field : String} {scalar : Json} :
      ¬ IsReserved field → level + 1 ≤ 100 → scalar.IsScalar →
        WellFormedEntry path level field scalar
  | nested {path : List String} {level : Nat} {field : String} {inner : Json} :
      ¬ IsReserved field → WellFormed (path ++ [field]) (level + 1) inner →
        WellFormedEntry path level field inner

end

variable {path : List String} {level : Nat} {name connective operator field : String}
  {value : Json} {members : List (String × Json)}

/-! What an entry may hold, by what its name says. -/

theorem isReserved_of_operator (known : operator ∈ operators) : IsReserved operator := by
  have all : ∀ operator ∈ operators, operator.toList.head? = some '$' := by decide
  exact all operator known

theorem isReserved_of_connective (connective : name = "$and" ∨ name = "$or") :
    IsReserved name := by
  rcases connective with rfl | rfl <;> rfl

theorem key_cases (name : String) :
    ((name = "$and" ∨ name = "$or") ∧
      (Key.ofName name = .allOf ∨ Key.ofName name = .someOf)) ∨
    (name = "$not" ∧ Key.ofName name = .negation) ∨
    (IsReserved name ∧ ¬ (name = "$and" ∨ name = "$or") ∧ name ≠ "$not" ∧
      Key.ofName name = .operator name) ∨
    (¬ IsReserved name ∧ Key.ofName name = .field name) := by
  rw [Key.ofName]
  by_cases every : name = "$and"
  · simp [every]
  by_cases any : name = "$or"
  · simp [any]
  by_cases negation : name = "$not"
  · simp [negation]
  rw [IsReserved]
  by_cases reserved : name.toList.head? = some '$'
  · simp [every, any, negation, reserved]
  · simp [every, any, negation, reserved]

theorem wellFormedEntry_connective_iff (connective : name = "$and" ∨ name = "$or") :
    WellFormedEntry path level name value ↔
      ∃ items, value = .array items ∧ ∀ item ∈ items, WellFormed path (level + 1) item := by
  have reserved := isReserved_of_connective connective
  constructor
  · intro entry
    cases entry with
    | combination _ formed => exact ⟨_, rfl, formed⟩
    | negation _ => simp at connective
    | comparison known =>
        rcases connective with rfl | rfl
        · simp [operators] at known
        · simp [operators] at known
    | equality plain => exact absurd reserved plain
    | nested plain => exact absurd reserved plain
  · rintro ⟨items, rfl, formed⟩
    exact .combination connective formed

theorem wellFormedEntry_negation_iff :
    WellFormedEntry path level "$not" value ↔ WellFormed path (level + 1) value := by
  constructor
  · intro entry
    cases entry with
    | combination connective => simp at connective
    | negation formed => exact formed
    | comparison known => simp [operators] at known
    | equality plain => exact absurd rfl plain
    | nested plain => exact absurd rfl plain
  · exact .negation

theorem wellFormedEntry_operator_iff (reserved : IsReserved operator)
    (noConnective : ¬ (operator = "$and" ∨ operator = "$or")) (noNegation : operator ≠ "$not") :
    WellFormedEntry path level operator value ↔
      operator ∈ operators ∧ path ≠ [] ∧ value.IsScalar := by
  constructor
  · intro entry
    cases entry with
    | combination connective => exact absurd connective noConnective
    | negation _ => exact absurd rfl noNegation
    | comparison known aboutField scalar => exact ⟨known, aboutField, scalar⟩
    | equality plain => exact absurd reserved plain
    | nested plain => exact absurd reserved plain
  · rintro ⟨known, aboutField, scalar⟩
    exact .comparison known aboutField scalar

theorem wellFormedEntry_field_iff (plain : ¬ IsReserved field) :
    WellFormedEntry path level field value ↔
      (level + 1 ≤ 100 ∧ value.IsScalar) ∨ WellFormed (path ++ [field]) (level + 1) value := by
  constructor
  · intro entry
    cases entry with
    | combination connective => exact absurd (isReserved_of_connective connective) plain
    | negation _ => exact absurd rfl plain
    | comparison known => exact absurd (isReserved_of_operator known) plain
    | equality _ bounded scalar => exact .inl ⟨bounded, scalar⟩
    | nested _ formed => exact .inr formed
  · rintro (⟨bounded, scalar⟩ | formed)
    · exact .equality plain bounded scalar
    · exact .nested plain formed

theorem wellFormed_object_iff :
    WellFormed path level (.object members) ↔
      level ≤ 100 ∧ ∀ name value, (name, value) ∈ members →
        WellFormedEntry path level name value := by
  constructor
  · intro formed
    cases formed with
    | object bounded entries => exact ⟨bounded, entries⟩
  · rintro ⟨bounded, entries⟩
    exact .object bounded entries

/-! When the parts of compiling succeed. -/

@[simp]
theorem requireDepth_eq_ok_iff {result : Unit} :
    requireDepth level = .ok result ↔ level ≤ 100 := by
  rw [requireDepth]
  split
  · next deeper =>
      rw [maximumFilterDepth] at deeper
      refine iff_of_false ?_ (Nat.not_le.mpr deeper)
      intro accepted
      cases accepted
  · next bounded =>
      rw [maximumFilterDepth] at bounded
      exact iff_of_true rfl (Nat.not_lt.mp bounded)

@[simp]
theorem literal_ok_iff :
    (∃ literal, Literal.ofJson value = .ok literal) ↔ value.IsScalar := by
  cases value <;> simp [Literal.ofJson, Json.IsScalar]

theorem comparison_found_iff :
    (∃ binary, Fields.get? operator comparisons = some binary) ↔ operator ∈ operators := by
  rw [← Option.isSome_iff_exists, Fields.get?_isSome_iff_mem_names]
  rfl

theorem comparison_ok_iff :
    (∃ expression, comparison path operator value = .ok expression) ↔
      operator ∈ operators ∧ path ≠ [] ∧ value.IsScalar := by
  rw [← comparison_found_iff, ← literal_ok_iff, comparison]
  cases path with
  | nil => simp [fault]
  | cons first rest =>
      cases Fields.get? operator comparisons with
      | none => simp [fault]
      | some binary => simp

theorem branch_ok_iff :
    (∃ result, branch connective path level value = .ok result) ↔
      ∃ members, value = .object members ∧ level ≤ 100 ∧
        ∃ inner, conditions path level members = .ok inner := by
  cases value with
  | object members => simp [branch]
  | _ => simp [branch, fault]

theorem condition_connective_ok_iff {key : Key} (connective : key = .allOf ∨ key = .someOf) :
    (∃ result, condition path level key name value = .ok result) ↔
      ∃ items, value = .array items ∧
        ∃ results, branches name path (level + 1) items = .ok results := by
  rcases connective with rfl | rfl
  · cases value <;> simp [condition, fault]
  · cases value <;> simp [condition, fault]

theorem condition_negation_ok_iff :
    (∃ result, condition path level .negation name value = .ok result) ↔
      ∃ result, branch connective path (level + 1) value = .ok result := by
  rw [branch_ok_iff]
  cases value <;> simp [condition, fault]

theorem condition_operator_ok_iff :
    (∃ result, condition path level (.operator operator) name value = .ok result) ↔
      ∃ expression, comparison path operator value = .ok expression := by
  cases value <;> simp [condition]

theorem condition_field_ok_iff :
    (∃ result, condition path level (.field field) name value = .ok result) ↔
      (level + 1 ≤ 100 ∧ value.IsScalar) ∨
        ∃ result, branch connective (path ++ [field]) (level + 1) value = .ok result := by
  rw [branch_ok_iff]
  cases value <;>
    simp [condition, fault, Literal.ofJson, Json.IsScalar]

theorem conditions_ok_iff :
    (∃ inner, conditions path level members = .ok inner) ↔
      ∀ name value, (name, value) ∈ members →
        ∃ result, condition path level (Key.ofName name) name value = .ok result := by
  induction members with
  | nil => simp [conditions]
  | cons member rest inductionHypothesis =>
      obtain ⟨name, value⟩ := member
      simp only [conditions, Outcome.bind_eq_ok, List.mem_cons, Outcome.pure_eq]
      constructor
      · rintro ⟨_, result, first, others, later, _⟩ other document member
        rcases member with same | member
        · cases same
          exact ⟨result, first⟩
        · exact inductionHypothesis.mp ⟨others, later⟩ other document member
      · intro all
        obtain ⟨result, first⟩ := all name value (.inl rfl)
        obtain ⟨others, later⟩ := inductionHypothesis.mpr fun other document member =>
          all other document (.inr member)
        exact ⟨_, result, first, others, later, rfl⟩

theorem branches_ok_iff {items : List Json} :
    (∃ results, branches connective path level items = .ok results) ↔
      ∀ item ∈ items, ∃ result, branch connective path level item = .ok result := by
  induction items with
  | nil => simp [branches]
  | cons item rest inductionHypothesis =>
      simp only [branches, Outcome.bind_eq_ok, Outcome.pure_eq, List.forall_mem_cons]
      rw [← inductionHypothesis]
      constructor
      · rintro ⟨_, result, first, others, later, _⟩
        exact ⟨⟨result, first⟩, others, later⟩
      · rintro ⟨⟨result, first⟩, others, later⟩
        exact ⟨_, result, first, others, later, rfl⟩

/-! The grammar and compiling together. -/

/-- Compiling a document succeeds where the grammar has it, as an object and as an entry. -/
structure Judged (value : Json) : Prop where
  asBranch : ∀ connective path level,
    (∃ result, branch connective path level value = .ok result) ↔ WellFormed path level value
  asEntry : ∀ path level name,
    (∃ result, condition path level (Key.ofName name) name value = .ok result) ↔
      WellFormedEntry path level name value

/-- An entry is judged by its name if its value is judged as a branch and, where it is an array, the
items are. -/
theorem entry_ok_iff
    (asBranch : ∀ connective path level,
      (∃ result, branch connective path level value = .ok result) ↔ WellFormed path level value)
    (items : ∀ items, value = .array items → ∀ item ∈ items, Judged item) :
    (∃ result, condition path level (Key.ofName name) name value = .ok result) ↔
      WellFormedEntry path level name value := by
  rcases key_cases name with ⟨connective, key⟩ | ⟨rfl, key⟩ |
    ⟨reserved, noConnective, noNegation, key⟩ | ⟨plain, key⟩
  · rw [condition_connective_ok_iff key, wellFormedEntry_connective_iff connective]
    apply exists_congr
    intro listed
    apply and_congr_right
    intro isArray
    rw [branches_ok_iff]
    exact forall₂_congr fun item member =>
      (items listed isArray item member).asBranch name path (level + 1)
  · rw [key, condition_negation_ok_iff, asBranch "$not", wellFormedEntry_negation_iff]
  · rw [key, condition_operator_ok_iff, comparison_ok_iff,
      wellFormedEntry_operator_iff reserved noConnective noNegation]
  · rw [key, condition_field_ok_iff, asBranch name, wellFormedEntry_field_iff plain]

theorem judged (value : Json) : Judged value := by
  induction value using Json.partsInduction with
  | scalar value isScalar =>
      have asBranch (connective : String) (path : List String) (level : Nat) :
          (∃ result, branch connective path level value = .ok result) ↔
            WellFormed path level value := by
        rw [branch_ok_iff]
        constructor
        · rintro ⟨members, rfl, _⟩
          exact isScalar.elim
        · rintro ⟨⟩
          exact isScalar.elim
      refine ⟨asBranch, fun path level name => entry_ok_iff asBranch ?_⟩
      rintro items rfl
      exact isScalar.elim
  | array items inductionHypothesis =>
      have asBranch (connective : String) (path : List String) (level : Nat) :
          (∃ result, branch connective path level (.array items) = .ok result) ↔
            WellFormed path level (.array items) := by
        rw [branch_ok_iff]
        exact iff_of_false nofun nofun
      refine ⟨asBranch, fun path level name => entry_ok_iff asBranch ?_⟩
      rintro _ ⟨⟩
      exact inductionHypothesis
  | object members inductionHypothesis =>
      have asBranch (connective : String) (path : List String) (level : Nat) :
          (∃ result, branch connective path level (.object members) = .ok result) ↔
            WellFormed path level (.object members) := by
        rw [branch_ok_iff, wellFormed_object_iff]
        simp only [Json.object.injEq, exists_eq_left']
        rw [conditions_ok_iff]
        refine and_congr_right fun _ => forall₃_congr fun name value member => ?_
        exact (inductionHypothesis name value member).asEntry path level name
      exact ⟨asBranch, fun path level name => entry_ok_iff asBranch nofun⟩

/-- A document compiles exactly if it is well formed about no field on the first level, and every
other document is refused as an invalid filter. -/
theorem compile_accepts_grammar (document : Json) :
    ((∃ condition, compile document = .ok condition) ↔ WellFormed [] 1 document) ∧
    ((∃ cause, compile document = .error (.invalidFilter cause)) ↔
      ¬ WellFormed [] 1 document) := by
  have accepted : (∃ condition, compile document = .ok condition) ↔ WellFormed [] 1 document := by
    rw [← (judged document).asBranch "$and", branch_ok_iff]
    cases document with
    | object members => simp [compile]
    | _ => simp [compile, fault]
  refine ⟨accepted, ?_⟩
  rw [← accepted]
  cases outcome : compile document with
  | ok condition => simp
  | error failure =>
      obtain ⟨cause, rfl⟩ := failsOnly_compile document failure outcome
      simp

end Filter

end EntityCursor
