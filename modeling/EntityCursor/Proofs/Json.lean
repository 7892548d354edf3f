import EntityCursor.Json.Tagged
import EntityCursor.Proofs.Fields

/-!
Induction over documents, where a property passes from the parts of a document to the whole, and how
the parts of a form are found in its document.
-/

namespace EntityCursor

namespace Json

/-- Documents without parts. -/
def IsScalar : Json → Prop
  | .array _ => False
  | .object _ => False
  | _ => True

@[elab_as_elim]
theorem partsInduction {motive : Json → Prop}
    (scalar : ∀ document : Json, document.IsScalar → motive document)
    (array : ∀ items, (∀ item ∈ items, motive item) → motive (.array items))
    (object : ∀ members, (∀ name document, (name, document) ∈ members → motive document) →
      motive (.object members)) : ∀ document, motive document
  | .null => scalar .null trivial
  | .bool flag => scalar (.bool flag) trivial
  | .integer value => scalar (.integer value) trivial
  | .double value => scalar (.double value) trivial
  | .string text => scalar (.string text) trivial
  | .array items => array items fun item _ => partsInduction scalar array object item
  | .object members => object members fun name document member =>
      have smaller : sizeOf document < sizeOf members := by
        have entry := List.sizeOf_lt_of_mem member
        rw [Prod.mk.sizeOf_spec] at entry
        omega
      partsInduction scalar array object document
termination_by document => sizeOf document

/-- Where the members of an object matter as they are found by their names. -/
@[elab_as_elim]
theorem nestedInduction {motive : Json → Prop} (null : motive .null)
    (bool : ∀ flag, motive (.bool flag)) (integer : ∀ value, motive (.integer value))
    (double : ∀ value, motive (.double value)) (string : ∀ text, motive (.string text))
    (array : ∀ items, (∀ item ∈ items, motive item) → motive (.array items))
    (object : ∀ members, (∀ name document, Fields.get? name members = some document →
      motive document) → motive (.object members)) (document : Json) : motive document := by
  induction document using partsInduction with
  | scalar document isScalar =>
      cases document with
      | null => exact null
      | bool flag => exact bool flag
      | integer value => exact integer value
      | double value => exact double value
      | string text => exact string text
      | array items => exact isScalar.elim
      | object members => exact isScalar.elim
  | array items inductionHypothesis => exact array items inductionHypothesis
  | object members inductionHypothesis =>
      exact object members fun name document found =>
        inductionHypothesis name document (Fields.mem_of_get? found)

end Json

namespace TaggedUnion

variable {Form Result : Type} (union : TaggedUnion Form Result)

@[simp]
theorem get?_memberParts (name : String) (members : List (String × Json)) :
    Fields.get? name (union.memberParts members) =
      (Fields.get? name members).map fun document => (document, union.ofJson? true document) := by
  induction members with
  | nil => simp [memberParts]
  | cons member rest inductionHypothesis =>
      obtain ⟨key, document⟩ := member
      rw [memberParts]
      by_cases same : key = name
      · subst same
        simp
      · rw [Fields.get?_cons_of_ne same, Fields.get?_cons_of_ne same, inductionHypothesis]

theorem ofJson?_object {numbered : Bool} {members : List (String × Json)} {tag : Json}
    (tagged : Fields.get? union.tag members = some tag) :
    union.ofJson? numbered (.object members) =
      (union.form? numbered tag).bind fun form =>
        union.ofParts? form (union.memberParts members) := by
  rw [ofJson?, tagged]
  rfl

end TaggedUnion

end EntityCursor
