import EntityCursor.Expr.Basic
import EntityCursor.Proofs.Value.Order

/-!
What filters compare, held against the order of all values. The two sides of a comparison may change
places, although a moment may stand on either side of a text or a number. Where a filter puts one
value of a kind before another, sorting does so too. Values that are equal in a filter tie in
sorting, unless there is a negative zero in them: filters do not tell it from the other zero, and
sorting does.
-/

namespace EntityCursor

/-! Numbers. -/

namespace Binary64

def negativeZero : Binary64 := zero.negate

variable {left right : Binary64}

theorem compare?_swap (left right : Binary64) :
    right.compare? left = (left.compare? right).map Ordering.swap := by
  rw [compare?, compare?, Bool.or_comm]
  split
  · rfl
  · exact congrArg some Std.OrientedOrd.eq_swap

theorem same_comm (left right : Binary64) : right.same left = left.same right := by
  rw [same, same, compare?_swap left right]
  rcases left.compare? right with _ | order
  · rfl
  · cases order <;> rfl

theorem rank_lt_of_signedMagnitude_lt (below : left.signedMagnitude < right.signedMagnitude) :
    left.rank < right.rank := by
  unfold signedMagnitude at below
  unfold rank
  cases leftSign : left.isNegative <;> cases rightSign : right.isNegative <;>
    simp only [leftSign, rightSign, Bool.false_eq_true, if_true, if_false] at below ⊢ <;> omega

/-- The sign shows in every number but the negative zero. -/
theorem isNegative_iff {number : Binary64} (unsigned : number ≠ negativeZero) :
    number.isNegative = true ↔ number.signedMagnitude < 0 := by
  unfold signedMagnitude
  cases sign : number.isNegative with
  | false => simp
  | true =>
      have nonzero : number.magnitude ≠ 0 := by
        intro nothing
        apply unsigned
        rw [← number.ofMagnitude_magnitude, sign, nothing]
        rfl
      simp only [if_true, true_iff]
      omega

theorem rank_eq_sub (number : Binary64) :
    number.rank = number.signedMagnitude - if number.isNegative then 1 else 0 := by
  unfold rank signedMagnitude
  split <;> omega

theorem eq_of_signedMagnitude_eq (same : left.signedMagnitude = right.signedMagnitude)
    (leftUnsigned : left ≠ negativeZero) (rightUnsigned : right ≠ negativeZero) :
    left = right := by
  apply eq_of_rank_eq
  rw [rank_eq_sub, rank_eq_sub]
  simp only [isNegative_iff leftUnsigned, isNegative_iff rightUnsigned, same]

theorem eq_of_same (equal : left.same right = true) (leftUnsigned : left ≠ negativeZero)
    (rightUnsigned : right ≠ negativeZero) : left = right := by
  rw [same, beq_iff_eq, compare?] at equal
  split at equal
  · cases equal
  · exact eq_of_signedMagnitude_eq (Int.compare_eq_eq.mp (Option.some.inj equal)) leftUnsigned
      rightUnsigned

/-- Apart from the zeros, bit patterns are in the order of the numbers. -/
theorem compare_of_compare?_ne {order : Ordering} (apart : order ≠ .eq)
    (compared : left.compare? right = some order) : Ord.compare left right = order := by
  rw [compare?] at compared
  split at compared
  · cases compared
  · have numbers := Option.some.inj compared
    cases order with
    | eq => exact absurd rfl apart
    | lt =>
        exact Int.compare_eq_lt.mpr (rank_lt_of_signedMagnitude_lt (Int.compare_eq_lt.mp numbers))
    | gt =>
        exact Int.compare_eq_gt.mpr (rank_lt_of_signedMagnitude_lt (Int.compare_eq_gt.mp numbers))

end Binary64

namespace Value

/-! Equality in structure. -/

mutual

theorem same_comm : (left right : Value) → right.same left = left.same right
  | .array left, right => by
      cases right with
      | array right => rw [Value.same, Value.same, sameItems_comm left right]
      | _ => simp only [Value.same]
  | .record left, right => by
      cases right with
      | record right => rw [Value.same, Value.same, sameFields_comm left right]
      | _ => simp only [Value.same]
  | .entity name left, right => by
      cases right with
      | entity otherName right =>
          rw [Value.same, Value.same, sameFields_comm left right, BEq.comm]
      | _ => simp only [Value.same]
  | .number left, right => by
      cases right with
      | number right => rw [Value.same, Value.same, Binary64.same_comm]
      | _ => simp only [Value.same]
  | .null, right => by cases right <;> simp only [Value.same]
  | .bool left, right => by cases right <;> simp only [Value.same, BEq.comm]
  | .string left, right => by cases right <;> simp only [Value.same, BEq.comm]
  | .date left, right => by cases right <;> simp only [Value.same, BEq.comm]
  | .bytes left, right => by cases right <;> simp only [Value.same, BEq.comm]

theorem sameItems_comm : (left right : List Value) → sameItems right left = sameItems left right
  | [], right => by cases right <;> rfl
  | left :: leftRest, right => by
      cases right with
      | nil => rfl
      | cons right rightRest =>
          rw [sameItems, sameItems, same_comm left right, sameItems_comm leftRest rightRest]

theorem sameFields_comm :
    (left right : List (String × Value)) → sameFields right left = sameFields left right
  | [], right => by cases right <;> rfl
  | (leftName, left) :: leftRest, right => by
      cases right with
      | nil => rfl
      | cons field rightRest =>
          rw [sameFields, sameFields, same_comm left field.2, sameFields_comm leftRest rightRest,
            BEq.comm (a := leftName)]

end

/-- A value is in a value: it is the value itself, or it is in an item or a field of it. -/
inductive Occurs (part : Value) : Value → Prop where
  | here : Occurs part part
  | item {items : List Value} {item : Value} :
      item ∈ items → Occurs part item → Occurs part (.array items)
  | field {fields : List (String × Value)} {field : String × Value} :
      field ∈ fields → Occurs part field.2 → Occurs part (.record fields)
  | entityField {name : String} {fields : List (String × Value)} {field : String × Value} :
      field ∈ fields → Occurs part field.2 → Occurs part (.entity name fields)

/-- There is no negative zero in a value. -/
def Unsigned (value : Value) : Prop := ¬ Occurs (.number .negativeZero) value

mutual

theorem eq_of_same : (left right : Value) → left.same right = true →
    left.Unsigned → right.Unsigned → left = right
  | .array left, right, same, leftUnsigned, rightUnsigned => by
      cases right with
      | array right =>
          rw [Value.same] at same
          rw [items_eq_of_same left right same
            (fun _ member within => leftUnsigned (.item member within))
            (fun _ member within => rightUnsigned (.item member within))]
      | _ => simp [Value.same] at same
  | .record left, right, same, leftUnsigned, rightUnsigned => by
      cases right with
      | record right =>
          rw [Value.same] at same
          rw [fields_eq_of_same left right same
            (fun _ member within => leftUnsigned (.field member within))
            (fun _ member within => rightUnsigned (.field member within))]
      | _ => simp [Value.same] at same
  | .entity name left, right, same, leftUnsigned, rightUnsigned => by
      cases right with
      | entity otherName right =>
          rw [Value.same, Bool.and_eq_true, beq_iff_eq] at same
          rw [same.1, fields_eq_of_same left right same.2
            (fun _ member within => leftUnsigned (.entityField member within))
            (fun _ member within => rightUnsigned (.entityField member within))]
      | _ => simp [Value.same] at same
  | .number left, right, same, leftUnsigned, rightUnsigned => by
      cases right with
      | number right =>
          rw [Value.same] at same
          apply congrArg Value.number
          apply Binary64.eq_of_same same
          · rintro rfl
            exact leftUnsigned .here
          · rintro rfl
            exact rightUnsigned .here
      | _ => simp [Value.same] at same
  | .null, right, same, _, _ => by cases right <;> simp_all [Value.same]
  | .bool left, right, same, _, _ => by cases right <;> simp_all [Value.same]
  | .string left, right, same, _, _ => by cases right <;> simp_all [Value.same]
  | .date left, right, same, _, _ => by cases right <;> simp_all [Value.same]
  | .bytes left, right, same, _, _ => by cases right <;> simp_all [Value.same]

theorem items_eq_of_same : (left right : List Value) → sameItems left right = true →
    (∀ item ∈ left, item.Unsigned) → (∀ item ∈ right, item.Unsigned) → left = right
  | [], right, same, _, _ => by
      cases right with
      | nil => rfl
      | cons => cases same
  | left :: leftRest, right, same, leftUnsigned, rightUnsigned => by
      cases right with
      | nil => cases same
      | cons right rightRest =>
          rw [sameItems, Bool.and_eq_true] at same
          obtain ⟨leftHere, leftLater⟩ := List.forall_mem_cons.mp leftUnsigned
          obtain ⟨rightHere, rightLater⟩ := List.forall_mem_cons.mp rightUnsigned
          rw [eq_of_same left right same.1 leftHere rightHere,
            items_eq_of_same leftRest rightRest same.2 leftLater rightLater]

theorem fields_eq_of_same :
    (left right : List (String × Value)) → sameFields left right = true →
    (∀ field ∈ left, field.2.Unsigned) → (∀ field ∈ right, field.2.Unsigned) → left = right
  | [], right, same, _, _ => by
      cases right with
      | nil => rfl
      | cons => cases same
  | (name, left) :: leftRest, right, same, leftUnsigned, rightUnsigned => by
      cases right with
      | nil => cases same
      | cons field rightRest =>
          obtain ⟨otherName, right⟩ := field
          simp only [sameFields, Bool.and_eq_true, beq_iff_eq] at same
          obtain ⟨leftHere, leftLater⟩ := List.forall_mem_cons.mp leftUnsigned
          obtain ⟨rightHere, rightLater⟩ := List.forall_mem_cons.mp rightUnsigned
          rw [same.1.1, eq_of_same left right same.1.2 leftHere rightHere,
            fields_eq_of_same leftRest rightRest same.2 leftLater rightLater]

end

/-! The order that filters see. -/

theorem map_swap {Entry : Type} {forth back : Entry → Ordering}
    (swapped : ∀ entry, back entry = (forth entry).swap) (found : Option Entry) :
    found.map back = (found.map forth).map Ordering.swap := by
  cases found with
  | none => rfl
  | some entry => exact congrArg some (swapped entry)

theorem compare?_swap (left right : Value) :
    right.compare? left = (left.compare? right).map Ordering.swap := by
  -- Only a moment meets another kind, and it may do so from either side.
  cases left with
  | null => cases right <;> rfl
  | bool left =>
      cases right with
      | bool right => exact congrArg some Std.OrientedOrd.eq_swap
      | _ => rfl
  | number left =>
      cases right with
      | number right => exact Binary64.compare?_swap left right
      | date right => exact map_swap (fun _ => Std.OrientedOrd.eq_swap) _
      | _ => rfl
  | string left =>
      cases right with
      | string right => exact congrArg some Std.OrientedOrd.eq_swap
      | date right => exact map_swap (fun _ => Std.OrientedOrd.eq_swap) _
      | _ => rfl
  | date left =>
      cases right with
      | date right => exact congrArg some Std.OrientedOrd.eq_swap
      | number right => exact map_swap (fun _ => Std.OrientedOrd.eq_swap) _
      | string right => exact map_swap (fun _ => Std.OrientedOrd.eq_swap) _
      | _ => rfl
  | bytes left =>
      cases right with
      | bytes right => exact congrArg some Std.OrientedOrd.eq_swap
      | _ => rfl
  | array left =>
      cases right with
      | array right =>
          rw [compare?, compare?, sameItems_comm left right]
          split <;> rfl
      | _ => rfl
  | record left =>
      cases right with
      | record right =>
          rw [compare?, compare?, sameFields_comm left right]
          split <;> rfl
      | _ => rfl
  | entity name left =>
      cases right with
      | entity otherName right =>
          rw [compare?, compare?, same_comm (.entity name left)]
          split <;> rfl
      | _ => rfl

/-! The two orders on values of one kind. -/

variable {left right : Value}

theorem same_of_compare? (alike : left.kind = right.kind)
    (tied : left.compare? right = some .eq) : left.same right = true := by
  cases left with
  | null =>
      cases right <;> cases alike
      rfl
  | bool _ | string _ | date _ | bytes _ =>
      cases right <;> cases alike
      exact beq_iff_eq.mpr (Std.LawfulEqOrd.eq_of_compare (Option.some.inj tied))
  | number left =>
      cases right <;> cases alike
      exact beq_iff_eq.mpr tied
  | array _ | record _ | entity _ _ =>
      cases right <;> cases alike
      rw [compare?] at tied
      split at tied
      · assumption
      · cases tied

theorem compare_of_compare?_ne (alike : left.kind = right.kind) {order : Ordering}
    (apart : order ≠ .eq) (compared : left.compare? right = some order) :
    left.compare right = order := by
  cases left with
  | null =>
      cases right <;> cases alike
      exact absurd (Option.some.inj compared).symm apart
  | bool _ | string _ | date _ | bytes _ =>
      cases right <;> cases alike
      exact Option.some.inj compared
  | number left =>
      cases right <;> cases alike
      exact Binary64.compare_of_compare?_ne apart compared
  | array _ | record _ | entity _ _ =>
      cases right <;> cases alike
      rw [compare?] at compared
      split at compared
      · exact absurd (Option.some.inj compared).symm apart
      · cases compared

end Value

/-- The comparison that says the same with the sides in each other's place. -/
def Comparison.mirrored : Comparison → Comparison
  | .equal => .equal
  | .notEqual => .notEqual
  | .less => .greater
  | .lessOrEqual => .greaterOrEqual
  | .greater => .less
  | .greaterOrEqual => .lessOrEqual

@[simp]
theorem Comparison.holds_mirrored (comparison : Comparison) (left right : Value) :
    comparison.mirrored.holds right left = comparison.holds left right := by
  have swapped := Value.compare?_swap left right
  cases comparison <;> simp only [mirrored, holds, Value.equals, swapped]
  all_goals
    generalize left.compare? right = order
    rcases order with _ | (_ | _ | _) <;> rfl

/-- Of the three ways to be in order, comparable values are in exactly one. -/
theorem Comparison.count_holds (left right : Value) :
    [less, equal, greater].countP (·.holds left right) =
      if (left.compare? right).isSome then 1 else 0 := by
  simp only [List.countP_cons, List.countP_nil, holds, Value.equals]
  rcases left.compare? right with _ | order
  · rfl
  · cases order <;> rfl

namespace Value

/-- The sides of a comparison may change places. Comparable values are less, equal or greater, each
of them excluding the others, and no other values are any of these. What a filter finds less or
greater than a value of its kind, sorting puts before or behind it, and what a filter finds equal
ties in sorting, if no negative zero is in the values. -/
theorem comparison_fits_order (left right : Value) :
    right.compare? left = (left.compare? right).map Ordering.swap ∧
    (∀ comparison : Comparison,
      comparison.mirrored.holds right left = comparison.holds left right) ∧
    Comparison.notEqual.holds left right = !Comparison.equal.holds left right ∧
    [Comparison.less, .equal, .greater].countP (·.holds left right) =
      (if (left.compare? right).isSome then 1 else 0) ∧
    (left.kind = right.kind →
      (∀ order, order ≠ .eq → left.compare? right = some order → left.compare right = order) ∧
      (left.compare? right = some .eq → left.Unsigned → right.Unsigned →
        left.compare right = .eq)) := by
  refine ⟨compare?_swap left right, ?_, rfl, Comparison.count_holds left right, ?_⟩
  · intro comparison
    exact comparison.holds_mirrored left right
  · intro alike
    refine ⟨fun order apart compared => compare_of_compare?_ne alike apart compared, ?_⟩
    intro tied leftUnsigned rightUnsigned
    rw [eq_of_same left right (same_of_compare? alike tied) leftUnsigned rightUnsigned]
    exact compare_self right

def measured (real : Binary64) : Value :=
  .array [.record [("place", .string "Rome"), ("value", .number real)]]

theorem measured_fits_order :
    (number .zero).kind = (number (.infinity false)).kind ∧
    (number .zero).compare? (number (.infinity false)) = some .lt ∧
    (number .zero).compare (number (.infinity false)) = .lt ∧
    (measured .zero).compare? (measured .zero) = some .eq ∧ (measured .zero).Unsigned ∧
    (measured .zero).compare (measured .zero) = .eq := by
  have below : (number .zero).compare? (number (.infinity false)) = some .lt := by decide
  have tied : (measured .zero).compare? (measured .zero) = some .eq := by decide
  have unsigned : (measured .zero).Unsigned := by
    intro occurs
    cases occurs with
    | item member within =>
        cases List.mem_singleton.mp member
        cases within with
        | field member within =>
            simp only [List.mem_cons, List.not_mem_nil, or_false] at member
            rcases member with rfl | rfl <;> cases within
  obtain ⟨_, _, _, _, numbers⟩ := comparison_fits_order (number .zero) (number (.infinity false))
  obtain ⟨_, _, _, _, nested⟩ := comparison_fits_order (measured .zero) (measured .zero)
  exact ⟨rfl, below, (numbers rfl).1 .lt (by decide) below, tied, unsigned,
    (nested rfl).2 tied unsigned unsigned⟩

/-- Filters do not tell the zeros apart, and sorting does. -/
example : (measured .zero).compare? (measured .negativeZero) = some .eq ∧
    (measured .zero).compare (measured .negativeZero) = .gt := by
  decide

end Value

end EntityCursor
