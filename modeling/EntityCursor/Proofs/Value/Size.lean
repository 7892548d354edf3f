import EntityCursor.Value.Order

/-!
The size of a value: how many arrays, records and entities there are in it. A value cannot be the
same as one of another size, so that an element never is the same as a part of itself.
-/

namespace EntityCursor

namespace Value

mutual

def size : Value → Nat
  | .array items => sizeItems items + 1
  | .record fields => sizeFields fields + 1
  | .entity _ fields => sizeFields fields + 1
  | .null => 0
  | .bool _ => 0
  | .number _ => 0
  | .string _ => 0
  | .date _ => 0
  | .bytes _ => 0

def sizeItems : List Value → Nat
  | [] => 0
  | item :: rest => item.size + sizeItems rest

def sizeFields : List (String × Value) → Nat
  | [] => 0
  | (_, value) :: rest => value.size + sizeFields rest

end

theorem size_le_sizeFields {name : String} {value : Value} {fields : List (String × Value)}
    (found : Fields.get? name fields = some value) : value.size ≤ sizeFields fields := by
  induction fields with
  | nil => simp at found
  | cons field rest inductionHypothesis =>
      obtain ⟨key, entry⟩ := field
      rw [sizeFields]
      rw [Fields.get?] at found
      split at found
      · cases found
        exact Nat.le_add_right _ _
      · exact Nat.le_trans (inductionHypothesis found) (Nat.le_add_left _ _)

theorem size_lt_of_fieldOrNull {value entry : Value} {name : String}
    (read : value.fieldOrNull name = .ok entry) : entry.size < value.size := by
  cases value with
  | record fields =>
      cases found : Fields.get? name fields with
      | none => simp [fieldOrNull, field?, found] at read
      | some other =>
          simp only [fieldOrNull, field?, found, Option.getD_some] at read
          cases read
          exact Nat.lt_succ_of_le (size_le_sizeFields found)
  | entity entity fields =>
      cases found : Fields.get? name fields with
      | none =>
          simp only [fieldOrNull, field?, found, Option.getD_none] at read
          cases read
          exact Nat.succ_pos _
      | some other =>
          simp only [fieldOrNull, field?, found, Option.getD_some] at read
          cases read
          exact Nat.lt_succ_of_le (size_le_sizeFields found)
  | _ => simp [fieldOrNull, field?] at read

mutual

theorem size_eq_of_same : (left right : Value) → left.same right = true → left.size = right.size
  | .array left, right, same => by
      cases right with
      | array right =>
          rw [Value.same] at same
          rw [size, size, sizeItems_eq_of_sameItems left right same]
      | _ => simp [Value.same] at same
  | .record left, right, same => by
      cases right with
      | record right =>
          rw [Value.same] at same
          rw [size, size, sizeFields_eq_of_sameFields left right same]
      | _ => simp [Value.same] at same
  | .entity _ left, right, same => by
      cases right with
      | entity rightName right =>
          rw [Value.same, Bool.and_eq_true] at same
          rw [size, size, sizeFields_eq_of_sameFields left right same.2]
      | _ => simp [Value.same] at same
  | .null, right, same => by cases right <;> simp_all [Value.same, size]
  | .bool _, right, same => by cases right <;> simp_all [Value.same, size]
  | .number _, right, same => by cases right <;> simp_all [Value.same, size]
  | .string _, right, same => by cases right <;> simp_all [Value.same, size]
  | .date _, right, same => by cases right <;> simp_all [Value.same, size]
  | .bytes _, right, same => by cases right <;> simp_all [Value.same, size]

theorem sizeItems_eq_of_sameItems :
    (left right : List Value) → sameItems left right = true → sizeItems left = sizeItems right
  | [], right, same => by cases right <;> simp_all [sameItems]
  | left :: leftRest, right, same => by
      cases right with
      | nil => simp [sameItems] at same
      | cons right rightRest =>
          rw [sameItems, Bool.and_eq_true] at same
          rw [sizeItems, sizeItems, size_eq_of_same left right same.1,
            sizeItems_eq_of_sameItems leftRest rightRest same.2]

theorem sizeFields_eq_of_sameFields :
    (left right : List (String × Value)) → sameFields left right = true →
      sizeFields left = sizeFields right
  | [], right, same => by cases right <;> simp_all [sameFields]
  | (leftName, left) :: leftRest, right, same => by
      cases right with
      | nil => simp [sameFields] at same
      | cons field rightRest =>
          obtain ⟨rightName, right⟩ := field
          simp only [sameFields, Bool.and_eq_true] at same
          rw [sizeFields, sizeFields, size_eq_of_same left right same.1.2,
            sizeFields_eq_of_sameFields leftRest rightRest same.2]

end

/-- Elements are not comparable with values of another size. -/
theorem compare?_record_of_size_ne {fields : List (String × Value)} {other : Value}
    (different : other.size ≠ (Value.record fields).size) :
    (Value.record fields).compare? other = none ∧ other.compare? (.record fields) = none := by
  cases other with
  | record others =>
      have forth : sameFields fields others ≠ true := by
        intro same
        exact different (by rw [size, size, sizeFields_eq_of_sameFields fields others same])
      have back : sameFields others fields ≠ true := by
        intro same
        exact different (by rw [size, size, sizeFields_eq_of_sameFields others fields same])
      simp [compare?, forth, back]
  | _ => simp [compare?, toMoment?]

theorem compare?_entity_of_size_ne (name : String) {fields : List (String × Value)} {other : Value}
    (different : other.size ≠ (Value.entity name fields).size) :
    (Value.entity name fields).compare? other = none ∧
      other.compare? (.entity name fields) = none := by
  cases other with
  | entity otherName others =>
      have forth : (Value.entity name fields).same (.entity otherName others) ≠ true := by
        intro same
        exact different (size_eq_of_same _ _ same).symm
      have back : (Value.entity otherName others).same (.entity name fields) ≠ true := by
        intro same
        exact different (size_eq_of_same _ _ same)
      simp only [compare?, forth, back]
      exact ⟨rfl, rfl⟩
  | _ => simp [compare?, toMoment?]

end Value

end EntityCursor
