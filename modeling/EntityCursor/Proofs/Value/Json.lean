import EntityCursor.Proofs.Binary64
import EntityCursor.Proofs.Descriptor.Rows
import EntityCursor.Value.Order
import Mathlib.Algebra.Group.Int.Defs

/-!
Values that come from documents. A value without moments, bytes and entities, and without numbers
that are infinite or no number, is the same after it was written as a document and read again. A
number may come back in another form: whole numbers are read from the digits of an integer as long
as they are small, and the sign of a zero is lost. A document that was read and written once is not
changed by doing so again.
-/

namespace EntityCursor

namespace Binary64

theorem isNaN_of_isFinite {number : Binary64} (finite : number.isFinite) :
    number.isNaN = false := by
  have below := of_decide_eq_true finite
  rw [isNaN, decide_eq_false_iff_not]
  omega

theorem same_of_signedMagnitude_eq {left right : Binary64} (leftFinite : left.isFinite)
    (rightFinite : right.isFinite) (equal : left.signedMagnitude = right.signedMagnitude) :
    left.same right = true := by
  rw [same, compare?, isNaN_of_isFinite leftFinite, isNaN_of_isFinite rightFinite, equal]
  simp

@[simp]
theorem same_self {number : Binary64} (finite : number.isFinite) : number.same number = true :=
  same_of_signedMagnitude_eq finite finite rfl

theorem magnitude_of_toInt?_zero {number : Binary64} (inside : number.toInt? = some 0) :
    number.magnitude = 0 := by
  rw [toInt?] at inside
  split at inside
  · next isWhole =>
      have nothing : number.truncate = 0 := Option.some.inj inside
      have size := natAbs_truncate number
      rw [nothing, Int.natAbs_zero] at size
      have significand : number.significand = 0 := by
        split at size
        · exact (Nat.mul_eq_zero.mp size.symm).resolve_right (Nat.ne_of_gt (Nat.two_pow_pos _))
        · next fractional =>
            have divides := isWhole.2.resolve_left fractional
            have parts := Nat.div_add_mod number.significand (Nat.pow 2 (-number.exponent).toNat)
            rw [divides, Nat.pow_eq, ← size] at parts
            exact parts.symm
      rw [Binary64.significand, Nat.pow_eq] at significand
      split at significand
      · exact significand
      · omega
  · cases inside

theorem same_ofInt_of_toInt? {number : Binary64} {whole : Int}
    (inside : number.toInt? = some whole) (small : whole.natAbs < 2 ^ 53) :
    (ofInt whole).same number = true := by
  have finite : number.isFinite := by
    rw [toInt?] at inside
    split at inside
    · next isWhole => exact isWhole.1
    · cases inside
  by_cases zero : whole = 0
  · subst zero
    have written : (ofInt 0).signedMagnitude = 0 := by decide
    apply same_of_signedMagnitude_eq (by decide) finite
    rw [written, signedMagnitude, magnitude_of_toInt?_zero inside]
    simp
  · rw [ofInt_of_toInt? inside zero small]
    exact same_self finite

end Binary64

namespace Json

mutual

/-- The numbers of the document are numbers that a document can have: whole numbers of 64 bits,
with or without a sign, and finite floating-point numbers. -/
def Bounded : Json → Prop
  | .integer value => -2 ^ 63 ≤ value ∧ value < 2 ^ 64
  | .double value => value.isFinite
  | .array items => BoundedItems items
  | .object members => BoundedMembers members
  | .null => True
  | .bool _ => True
  | .string _ => True

def BoundedItems : List Json → Prop
  | [] => True
  | item :: rest => item.Bounded ∧ BoundedItems rest

def BoundedMembers : List (String × Json) → Prop
  | [] => True
  | (_, value) :: rest => value.Bounded ∧ BoundedMembers rest

end

theorem bounded_of_get? {members : List (String × Json)} {name : String} {document : Json}
    (bounded : BoundedMembers members) (found : Fields.get? name members = some document) :
    document.Bounded := by
  induction members with
  | nil => cases found
  | cons member rest inductionHypothesis =>
      obtain ⟨key, value⟩ := member
      rw [Fields.get?] at found
      split at found
      · cases found
        exact bounded.1
      · exact inductionHypothesis bounded.2 found

theorem bounded_of_mem {items : List Json} {item : Json} (bounded : BoundedItems items)
    (member : item ∈ items) : item.Bounded := by
  induction items with
  | nil => cases member
  | cons first rest inductionHypothesis =>
      rcases List.mem_cons.mp member with rfl | later
      · exact bounded.1
      · exact inductionHypothesis bounded.2 later

theorem isFinite_toBinary64? {document : Json} {number : Binary64} (bounded : document.Bounded)
    (isNumber : document.toBinary64? = some number) : number.isFinite := by
  cases document with
  | integer value =>
      cases isNumber
      have fits : -2 ^ 63 ≤ value ∧ value < 2 ^ 64 := bounded
      exact Binary64.isFinite_ofInt (by omega)
  | double value =>
      cases isNumber
      exact bounded
  | _ => cases isNumber

end Json

namespace Value

mutual

/-- The value is made of what documents are made of: null, flags, finite numbers, texts, arrays and
records. -/
def JsonShaped : Value → Prop
  | .null => True
  | .bool _ => True
  | .number real => real.isFinite
  | .string _ => True
  | .date _ => False
  | .bytes _ => False
  | .array items => JsonShapedItems items
  | .record fields => JsonShapedFields fields
  | .entity _ _ => False

def JsonShapedItems : List Value → Prop
  | [] => True
  | item :: rest => item.JsonShaped ∧ JsonShapedItems rest

def JsonShapedFields : List (String × Value) → Prop
  | [] => True
  | (_, value) :: rest => value.JsonShaped ∧ JsonShapedFields rest

end

/-- A finite number is written as itself or as a whole number that reads as the same number. -/
theorem numberToJson_cases {real : Binary64} (finite : real.isFinite) :
    (∃ whole, numberToJson real = .integer whole ∧ (Binary64.ofInt whole).same real = true) ∨
      numberToJson real = .double real := by
  rw [numberToJson]
  cases inside : real.toInt? with
  | none => exact .inr (if_pos finite)
  | some whole =>
      dsimp only
      split
      · next small =>
          rw [wholeNumberBound] at small
          exact .inl ⟨whole, rfl, Binary64.same_ofInt_of_toInt? inside (by omega)⟩
      · exact .inr rfl

theorem same_ofJson_numberToJson {real : Binary64} (finite : real.isFinite) :
    (ofJson (numberToJson real)).same (.number real) = true := by
  rcases numberToJson_cases finite with ⟨whole, written, same⟩ | written
  · rw [written, ofJson, Value.same]
    exact same
  · rw [written, ofJson, Value.same]
    exact Binary64.same_self finite

mutual

theorem same_ofJson_toJson :
    (value : Value) → value.JsonShaped → (ofJson value.toJson).same value = true
  | .null, _ => rfl
  | .bool _, _ => by simp [toJson, ofJson, Value.same]
  | .number _, shaped => same_ofJson_numberToJson shaped
  | .string _, _ => by simp [toJson, ofJson, Value.same]
  | .array items, shaped => same_ofJsonItems_itemsToJson items shaped
  | .record fields, shaped => same_ofJsonMembers_fieldsToJson fields shaped

theorem same_ofJsonItems_itemsToJson :
    (items : List Value) → JsonShapedItems items →
      sameItems (ofJsonItems (itemsToJson items)) items = true
  | [], _ => rfl
  | item :: rest, ⟨first, later⟩ => by
      rw [itemsToJson, ofJsonItems, sameItems, same_ofJson_toJson item first,
        same_ofJsonItems_itemsToJson rest later]
      rfl

theorem same_ofJsonMembers_fieldsToJson :
    (fields : List (String × Value)) → JsonShapedFields fields →
      sameFields (ofJsonMembers (fieldsToJson fields)) fields = true
  | [], _ => rfl
  | (name, value) :: rest, ⟨first, later⟩ => by
      rw [fieldsToJson, ofJsonMembers, sameFields, same_ofJson_toJson value first,
        same_ofJsonMembers_fieldsToJson rest later]
      simp

end

mutual

theorem jsonShaped_ofJson : (document : Json) → document.Bounded → (ofJson document).JsonShaped
  | .null, _ => trivial
  | .bool _, _ => trivial
  | .integer _, bounded => Json.isFinite_toBinary64? bounded rfl
  | .double _, bounded => bounded
  | .string _, _ => trivial
  | .array items, bounded => jsonShaped_ofJsonItems items bounded
  | .object members, bounded => jsonShaped_ofJsonMembers members bounded

theorem jsonShaped_ofJsonItems :
    (items : List Json) → Json.BoundedItems items → JsonShapedItems (ofJsonItems items)
  | [], _ => trivial
  | item :: rest, ⟨first, later⟩ =>
      ⟨jsonShaped_ofJson item first, jsonShaped_ofJsonItems rest later⟩

theorem jsonShaped_ofJsonMembers :
    (members : List (String × Json)) → Json.BoundedMembers members →
      JsonShapedFields (ofJsonMembers members)
  | [], _ => trivial
  | (_, document) :: rest, ⟨first, later⟩ =>
      ⟨jsonShaped_ofJson document first, jsonShaped_ofJsonMembers rest later⟩

end

/-! Normal forms. -/

/-- What a number is written as is written the same after it was read. A whole number stays below
the bound, so that it is held exactly, and any other form is read as the number itself. -/
@[simp]
theorem toJson_ofJson_numberToJson (real : Binary64) :
    (ofJson (numberToJson real)).toJson = numberToJson real := by
  rw [numberToJson]
  cases inside : real.toInt? with
  | none =>
      dsimp only
      split
      · next finite =>
          rw [ofJson, toJson, numberToJson, inside]
          exact if_pos finite
      · rfl
  | some whole =>
      dsimp only
      split
      · next small =>
          by_cases zero : whole = 0
          · subst zero
            have exact : (Binary64.ofInt 0).toInt? = some 0 := by decide +kernel
            rw [ofJson, toJson, numberToJson, exact]
            exact if_pos small
          · rw [wholeNumberBound] at small
            have exact : Binary64.ofInt whole = real :=
              Binary64.ofInt_of_toInt? inside zero (by omega)
            rw [ofJson, exact, toJson, numberToJson, inside]
            exact if_pos small
      · next large =>
          rw [ofJson, toJson, numberToJson, inside]
          exact if_neg large

mutual

@[simp]
theorem toJson_ofJson_toJson : (value : Value) → (ofJson value.toJson).toJson = value.toJson
  | .null => rfl
  | .bool _ => rfl
  | .number real => toJson_ofJson_numberToJson real
  | .string _ => rfl
  | .array items => congrArg Json.array (itemsToJson_ofJsonItems_itemsToJson items)
  | .record fields => congrArg Json.object (fieldsToJson_ofJsonMembers_fieldsToJson fields)
  | .date _ => rfl
  | .bytes _ => rfl
  | .entity _ fields => congrArg Json.object (fieldsToJson_ofJsonMembers_fieldsToJson fields)

@[simp]
theorem itemsToJson_ofJsonItems_itemsToJson :
    (items : List Value) → itemsToJson (ofJsonItems (itemsToJson items)) = itemsToJson items
  | [] => rfl
  | item :: rest => by
      rw [itemsToJson, ofJsonItems, itemsToJson, toJson_ofJson_toJson item,
        itemsToJson_ofJsonItems_itemsToJson rest]

@[simp]
theorem fieldsToJson_ofJsonMembers_fieldsToJson :
    (fields : List (String × Value)) →
      fieldsToJson (ofJsonMembers (fieldsToJson fields)) = fieldsToJson fields
  | [] => rfl
  | (name, value) :: rest => by
      rw [fieldsToJson, ofJsonMembers, fieldsToJson, toJson_ofJson_toJson value,
        fieldsToJson_ofJsonMembers_fieldsToJson rest]

end

/-- Values that are made of what documents are made of survive being written as documents, and what
a document comes to after it was read is a normal form. -/
theorem survives_json :
    (∀ value : Value, value.JsonShaped → (ofJson value.toJson).same value = true) ∧
      ∀ document : Json,
        (ofJson (ofJson document).toJson).toJson = (ofJson document).toJson :=
  ⟨same_ofJson_toJson, fun document => toJson_ofJson_toJson (ofJson document)⟩

/-- A record with a negative zero, half a number and a whole number past the bound. -/
def measurement : Value :=
  .record [("counts", .array [.number (.ofMagnitude true 0), .number (.ofRatio false 1 2),
    .number (.ofInt (2 ^ 60))]), ("unit", .null)]

/-- A whole number that no floating-point number equals is rounded once and for all. -/
theorem measurement_survives_json :
    measurement.JsonShaped ∧ (ofJson measurement.toJson).same measurement = true ∧
      (ofJson (ofJson (.integer (2 ^ 60 + 1))).toJson).toJson =
        (ofJson (.integer (2 ^ 60 + 1))).toJson := by
  have zero : (Binary64.ofMagnitude true 0).isFinite := by decide +kernel
  have half : (Binary64.ofRatio false 1 2).isFinite := by decide +kernel
  have whole : (Binary64.ofInt (2 ^ 60)).isFinite := Binary64.isFinite_ofInt (by decide)
  have shaped : measurement.JsonShaped := ⟨⟨zero, half, whole, trivial⟩, trivial, trivial⟩
  exact ⟨shaped, survives_json.1 measurement shaped, survives_json.2 (.integer (2 ^ 60 + 1))⟩

/-! Fields. -/

@[simp]
theorem get?_fieldsToJson (name : String) (fields : List (String × Value)) :
    Fields.get? name (fieldsToJson fields) = (Fields.get? name fields).map toJson := by
  induction fields with
  | nil => rfl
  | cons field rest inductionHypothesis =>
      obtain ⟨key, value⟩ := field
      by_cases same : key = name
      · simp [fieldsToJson, Fields.get?, same]
      · simp [fieldsToJson, Fields.get?, same, inductionHypothesis]

/-- Two optional values that are both absent or the same. -/
def Alike (left right : Option Value) : Prop :=
  Option.Rel (fun left right => left.same right = true) left right

theorem sameFields_of_alike {left right : Record} (leftAscending : Fields.Ascending left)
    (rightAscending : Fields.Ascending right)
    (alike : ∀ name, Alike (Fields.get? name left) (Fields.get? name right)) :
    sameFields left right = true := by
  refine Fields.relatedInduction (motive := fun left right => sameFields left right = true) rfl ?_
    leftAscending rightAscending alike
  intro name leftValue rightValue leftRest rightRest same rests
  rw [sameFields, same, rests]
  simp

end Value

end EntityCursor
