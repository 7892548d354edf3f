import EntityCursor.Proofs.Binary64
import EntityCursor.Value.Order

/-!
The order of all values. Comparing is a total preorder at every depth: an array or a record is
compared by the first difference in it, so that each law for it follows from the same law for what
is in it. Only entities that are not the same can tie, since they are compared by their identifiers
alone.
-/

namespace EntityCursor

/-! The orders of numbers and moments. -/

namespace Binary64

theorem eq_of_rank_eq {left right : Binary64} (same : left.rank = right.rank) : left = right := by
  have parts : left.isNegative = right.isNegative ∧ left.magnitude = right.magnitude := by
    unfold rank at same
    cases leftSign : left.isNegative <;> cases rightSign : right.isNegative <;>
      simp only [leftSign, rightSign, Bool.false_eq_true, if_true, if_false] at same <;>
      simp only [reduceCtorEq, true_and, false_and] <;> omega
  rw [← left.ofMagnitude_magnitude, ← right.ofMagnitude_magnitude, parts.1, parts.2]

instance : Std.TransOrd Binary64 := inferInstanceAs (Std.TransCmp (compareOn rank))

instance : Std.LawfulEqOrd Binary64 where
  compare_self := Std.ReflOrd.compare_self (α := Int)
  eq_of_compare equal := eq_of_rank_eq (Std.LawfulEqOrd.eq_of_compare (α := Int) equal)

end Binary64

namespace Moment

instance : Std.TransOrd Moment :=
  inferInstanceAs (Std.TransCmp (compareLex (compareOn seconds) (compareOn nanos)))

instance : Std.LawfulEqOrd Moment where
  compare_self {moment} := by
    change Moment.compare moment moment = .eq
    rw [Moment.compare, Std.ReflOrd.compare_self, Std.ReflOrd.compare_self]
    rfl
  eq_of_compare {left right} tie := by
    change Moment.compare left right = .eq at tie
    rw [Moment.compare, Ordering.then_eq_eq] at tie
    cases left
    cases right
    exact congrArg₂ mk (Std.LawfulEqOrd.eq_of_compare tie.1) (Std.LawfulEqOrd.eq_of_compare tie.2)

end Moment

/-! Comparisons that fit together. -/

/-- Of three comparisons, the one of the outer two values says what the first difference in the
others says, unless one of these says that a value is greater than the next. -/
def Ordering.Fits (first second outer : Ordering) : Prop :=
  first ≠ .gt → second ≠ .gt → outer = first.then second

namespace Ordering.Fits

variable {first second outer firstRest secondRest outerRest : Ordering}

theorem of_order {Entry : Type} (order : Entry → Entry → Ordering) [Std.TransCmp order]
    (left middle right : Entry) :
    Fits (order left middle) (order middle right) (order left right) := by
  intro notAbove notBelow
  cases here : order left middle with
  | gt => exact absurd here notAbove
  | eq => exact Std.TransCmp.congr_left here
  | lt =>
      cases next : order middle right with
      | gt => exact absurd next notBelow
      | eq => exact Std.TransCmp.lt_of_lt_of_eq here next
      | lt => exact Std.TransCmp.lt_trans here next

theorem of_compare {Entry : Type} [Ord Entry] [Std.TransOrd Entry] (left middle right : Entry) :
    Fits (compare left middle) (compare middle right) (compare left right) :=
  of_order compare left middle right

theorem append (fits : Fits first second outer)
    (later : first = .eq → second = .eq → Fits firstRest secondRest outerRest) :
    Fits (first.then firstRest) (second.then secondRest) (outer.then outerRest) := by
  unfold Fits at *
  cases first <;> cases second <;> simp_all [Ordering.then]
  intro notAbove
  cases firstRest <;> simp_all

theorem not_gt (fits : Fits first second outer) (notAbove : first ≠ .gt) (notBelow : second ≠ .gt) :
    outer ≠ .gt := by
  rw [fits notAbove notBelow]
  cases first <;> simp_all [Ordering.then]

theorem eq_iff (fits : Fits first second outer) (notAbove : first ≠ .gt) (notBelow : second ≠ .gt) :
    outer = .eq ↔ first = .eq ∧ second = .eq := by
  rw [fits notAbove notBelow]
  exact Ordering.then_eq_eq

theorem isLE (fits : Fits first second outer) (firstLow : first.isLE) (secondLow : second.isLE) :
    outer.isLE :=
  Ordering.isLE_iff_ne_gt.mpr <| fits.not_gt (Ordering.isLE_iff_ne_gt.mp firstLow)
    (Ordering.isLE_iff_ne_gt.mp secondLow)

end Ordering.Fits

/-! Lists that are compared by their first difference. -/

namespace Lexicographic

variable {Entry : Type} {order : Entry → Entry → Ordering} {left : List Entry}

theorem compare_self (reflexive : ∀ entry ∈ left, order entry entry = .eq) :
    List.compareLex order left left = .eq := by
  induction left with
  | nil => rfl
  | cons entry rest inductionHypothesis =>
      obtain ⟨here, later⟩ := List.forall_mem_cons.mp reflexive
      rw [List.compareLex_cons_cons, here, inductionHypothesis later]
      rfl

theorem compare_swap
    (oriented : ∀ entry ∈ left, ∀ other, order other entry = (order entry other).swap)
    (right : List Entry) :
    List.compareLex order right left = (List.compareLex order left right).swap := by
  induction left generalizing right with
  | nil => cases right <;> rfl
  | cons entry rest inductionHypothesis =>
      obtain ⟨here, later⟩ := List.forall_mem_cons.mp oriented
      cases right with
      | nil => rfl
      | cons other others =>
          rw [List.compareLex_cons_cons, List.compareLex_cons_cons, Ordering.swap_then, here,
            inductionHypothesis later]

theorem compare_fits
    (fits : ∀ entry ∈ left, ∀ middle right,
      Ordering.Fits (order entry middle) (order middle right) (order entry right))
    (middle right : List Entry) :
    Ordering.Fits (List.compareLex order left middle) (List.compareLex order middle right)
      (List.compareLex order left right) := by
  induction left generalizing middle right with
  | nil =>
      intro _ notBelow
      cases middle with
      | nil => rfl
      | cons => cases right with
        | nil => exact absurd rfl notBelow
        | cons => rfl
  | cons entry rest inductionHypothesis =>
      obtain ⟨here, later⟩ := List.forall_mem_cons.mp fits
      cases middle with
      | nil =>
          intro notAbove
          exact absurd rfl notAbove
      | cons second seconds => cases right with
        | nil =>
            intro _ notBelow
            exact absurd rfl notBelow
        | cons third thirds =>
            simp only [List.compareLex_cons_cons]
            exact (here second third).append fun _ _ => inductionHypothesis later seconds thirds

theorem eq_of_compare
    (lawful : ∀ entry ∈ left, ∀ other, order entry other = .eq → entry = other)
    {right : List Entry} (tie : List.compareLex order left right = .eq) : left = right := by
  induction left generalizing right with
  | nil => cases right with
    | nil => rfl
    | cons => cases tie
  | cons entry rest inductionHypothesis =>
      obtain ⟨here, later⟩ := List.forall_mem_cons.mp lawful
      cases right with
      | nil => cases tie
      | cons other others =>
          rw [List.compareLex_cons_cons, Ordering.then_eq_eq] at tie
          rw [here other tie.1, inductionHypothesis later tie.2]

end Lexicographic

namespace Value

theorem nestedInduction {motive : Value → Prop} (null : motive .null)
    (bool : ∀ flag, motive (.bool flag)) (number : ∀ real, motive (.number real))
    (string : ∀ text, motive (.string text)) (date : ∀ moment, motive (.date moment))
    (bytes : ∀ content, motive (.bytes content))
    (array : ∀ items, (∀ item ∈ items, motive item) → motive (.array items))
    (record : ∀ fields, (∀ field ∈ fields, motive field.2) → motive (.record fields))
    (entity : ∀ name fields, motive (.entity name fields)) : ∀ value, motive value
  | .null => null
  | .bool flag => bool flag
  | .number real => number real
  | .string text => string text
  | .date moment => date moment
  | .bytes content => bytes content
  | .array items => array items fun item _ =>
      nestedInduction null bool number string date bytes array record entity item
  | .record fields => record fields fun field member =>
      have : sizeOf field.2 < sizeOf fields := by
        have smaller := List.sizeOf_lt_of_mem member
        rw [Prod.mk.sizeOf_spec] at smaller
        omega
      nestedInduction null bool number string date bytes array record entity field.2
  | .entity name fields => entity name fields
termination_by value => sizeOf value

/-- Fields are compared by their names before their values. -/
def compareField (left right : String × Value) : Ordering :=
  (Ord.compare left.1 right.1).then (left.2.compare right.2)

theorem compareItems_eq (left right : List Value) :
    compareItems left right = List.compareLex Value.compare left right := by
  induction left generalizing right with
  | nil => cases right <;> rfl
  | cons item rest inductionHypothesis =>
      cases right with
      | nil => rfl
      | cons other others =>
          rw [compareItems, List.compareLex_cons_cons, inductionHypothesis]

theorem compareFields_eq (left right : List (String × Value)) :
    compareFields left right = List.compareLex compareField left right := by
  induction left generalizing right with
  | nil => cases right <;> rfl
  | cons field rest inductionHypothesis =>
      cases right with
      | nil => rfl
      | cons other others =>
          rw [compareFields, List.compareLex_cons_cons, inductionHypothesis, compareField]

/-- Values are compared by their kinds before anything else. -/
theorem compare_eq_then (left right : Value) :
    left.compare right =
      (Ord.compare left.kind.rank right.kind.rank).then (left.compare right) := by
  cases left <;> cases right <;> rfl

theorem kind_eq_of_rank {left right : ValueKind}
    (tie : Ord.compare left.rank right.rank = .eq) : left = right := by
  have same := Std.LawfulEqOrd.eq_of_compare tie
  cases left <;> cases right <;> first | rfl | cases same

@[simp]
theorem compare_self (value : Value) : value.compare value = .eq := by
  induction value using nestedInduction with
  | null => rfl
  | bool _ | number _ | string _ | date _ | bytes _ | entity _ _ =>
      exact Std.ReflOrd.compare_self
  | array items inductionHypothesis =>
      rw [Value.compare, compareItems_eq]
      exact Lexicographic.compare_self inductionHypothesis
  | record fields inductionHypothesis =>
      rw [Value.compare, compareFields_eq]
      apply Lexicographic.compare_self
      intro field member
      rw [compareField, Std.ReflOrd.compare_self, inductionHypothesis field member]
      rfl

theorem swap_of_alike {left right : Value}
    (alike : left.kind = right.kind → right.compare left = (left.compare right).swap) :
    right.compare left = (left.compare right).swap := by
  rw [compare_eq_then right left, compare_eq_then left right, Ordering.swap_then,
    Std.OrientedOrd.eq_swap (a := right.kind.rank)]
  cases ranks : Ord.compare left.kind.rank right.kind.rank with
  | eq => exact alike (kind_eq_of_rank ranks)
  | lt => rfl
  | gt => rfl

theorem compare_swap (left right : Value) : right.compare left = (left.compare right).swap := by
  induction left using nestedInduction generalizing right with
  | null =>
      refine swap_of_alike fun same => ?_
      cases right <;> cases same
      rfl
  | bool _ | number _ | string _ | date _ | bytes _ | entity _ _ =>
      refine swap_of_alike fun same => ?_
      cases right <;> cases same
      exact Std.OrientedOrd.eq_swap
  | array items inductionHypothesis =>
      refine swap_of_alike fun same => ?_
      cases right <;> cases same
      rw [Value.compare, Value.compare, compareItems_eq, compareItems_eq]
      exact Lexicographic.compare_swap inductionHypothesis _
  | record fields inductionHypothesis =>
      refine swap_of_alike fun same => ?_
      cases right <;> cases same
      rw [Value.compare, Value.compare, compareFields_eq, compareFields_eq]
      apply Lexicographic.compare_swap
      intro field member other
      rw [compareField, compareField, Ordering.swap_then, Std.OrientedOrd.eq_swap (a := other.1),
        inductionHypothesis field member]

theorem fits_of_alike {first second third : Value}
    (alike : first.kind = second.kind → second.kind = third.kind →
      Ordering.Fits (first.compare second) (second.compare third) (first.compare third)) :
    Ordering.Fits (first.compare second) (second.compare third) (first.compare third) := by
  have ranks := Ordering.Fits.of_compare first.kind.rank second.kind.rank third.kind.rank
  rw [compare_eq_then first second, compare_eq_then second third, compare_eq_then first third]
  exact ranks.append fun sameFirst sameSecond =>
    alike (kind_eq_of_rank sameFirst) (kind_eq_of_rank sameSecond)

theorem compare_fits (first second third : Value) :
    Ordering.Fits (first.compare second) (second.compare third) (first.compare third) := by
  -- The other two values may be taken to be of the kind of the first one in every case.
  induction first using nestedInduction generalizing second third with
  | null =>
      refine fits_of_alike fun sameFirst sameSecond => ?_
      cases second <;> cases sameFirst
      cases third <;> cases sameSecond
      exact fun _ _ => rfl
  | bool _ | number _ | string _ | date _ | bytes _ | entity _ _ =>
      refine fits_of_alike fun sameFirst sameSecond => ?_
      cases second <;> cases sameFirst
      cases third <;> cases sameSecond
      exact .of_compare _ _ _
  | array items inductionHypothesis =>
      refine fits_of_alike fun sameFirst sameSecond => ?_
      cases second <;> cases sameFirst
      cases third <;> cases sameSecond
      rw [Value.compare, Value.compare, Value.compare]
      simp only [compareItems_eq]
      exact Lexicographic.compare_fits inductionHypothesis _ _
  | record fields inductionHypothesis =>
      refine fits_of_alike fun sameFirst sameSecond => ?_
      cases second <;> cases sameFirst
      cases third <;> cases sameSecond
      rw [Value.compare, Value.compare, Value.compare]
      simp only [compareFields_eq]
      apply Lexicographic.compare_fits
      intro field member middle right
      exact (Ordering.Fits.of_compare field.1 middle.1 right.1).append fun _ _ =>
        inductionHypothesis field member middle.2 right.2

instance : Std.TransCmp Value.compare where
  eq_swap := compare_swap _ _
  isLE_trans := (compare_fits _ _ _).isLE

/-- There is no entity in a value at any depth. -/
inductive EntityFree : Value → Prop where
  | null : EntityFree .null
  | bool (flag : Bool) : EntityFree (.bool flag)
  | number (real : Binary64) : EntityFree (.number real)
  | string (text : String) : EntityFree (.string text)
  | date (moment : Moment) : EntityFree (.date moment)
  | bytes (content : List UInt8) : EntityFree (.bytes content)
  | array {items : List Value} : (∀ item ∈ items, EntityFree item) → EntityFree (.array items)
  | record {fields : List (String × Value)} : (∀ field ∈ fields, EntityFree field.2) →
      EntityFree (.record fields)

theorem kind_eq_of_compare {left right : Value} (tie : left.compare right = .eq) :
    left.kind = right.kind := by
  rw [compare_eq_then, Ordering.then_eq_eq] at tie
  exact kind_eq_of_rank tie.1

theorem EntityFree.eq_of_compare {left : Value} (free : left.EntityFree) {right : Value}
    (tie : left.compare right = .eq) : left = right := by
  have alike := kind_eq_of_compare tie
  induction free generalizing right with
  | null =>
      cases right <;> cases alike
      rfl
  | bool flag =>
      cases right <;> cases alike
      exact congrArg Value.bool (Std.LawfulEqOrd.eq_of_compare tie)
  | number real =>
      cases right <;> cases alike
      exact congrArg Value.number (Std.LawfulEqOrd.eq_of_compare tie)
  | string text =>
      cases right <;> cases alike
      exact congrArg Value.string (Std.LawfulEqOrd.eq_of_compare tie)
  | date moment =>
      cases right <;> cases alike
      exact congrArg Value.date (Std.LawfulEqOrd.eq_of_compare tie)
  | bytes content =>
      cases right <;> cases alike
      exact congrArg Value.bytes (Std.LawfulEqOrd.eq_of_compare tie)
  | array _ inductionHypothesis =>
      cases right <;> cases alike
      rw [Value.compare, compareItems_eq] at tie
      apply congrArg Value.array
      apply Lexicographic.eq_of_compare _ tie
      intro item member other same
      exact inductionHypothesis item member same (kind_eq_of_compare same)
  | record _ inductionHypothesis =>
      cases right <;> cases alike
      rw [Value.compare, compareFields_eq] at tie
      apply congrArg Value.record
      apply Lexicographic.eq_of_compare _ tie
      intro field member other same
      rw [compareField, Ordering.then_eq_eq] at same
      exact Prod.ext (Std.LawfulEqOrd.eq_of_compare same.1)
        (inductionHypothesis field member same.2 (kind_eq_of_compare same.2))

/-- Comparing is a total preorder, and values without entities tie with themselves only. -/
theorem compare_total_preorder (first second third : Value) :
    first.compare first = .eq ∧
    second.compare first = (first.compare second).swap ∧
    (first.compare second ≠ .gt → second.compare third ≠ .gt →
      first.compare third ≠ .gt ∧
        (first.compare third = .eq ↔ first.compare second = .eq ∧ second.compare third = .eq)) ∧
    (first.EntityFree → first.compare second = .eq → first = second) := by
  have fits := compare_fits first second third
  refine ⟨first.compare_self, first.compare_swap second, ?_, ?_⟩
  · intro notAbove notBelow
    exact ⟨fits.not_gt notAbove notBelow, fits.eq_iff notAbove notBelow⟩
  · intro free tie
    exact free.eq_of_compare tie

def reading (real : Binary64) : Value :=
  .record [("place", .string "Rome"), ("values", .array [.null, .number real])]

theorem entityFree_reading (real : Binary64) : (reading real).EntityFree := by
  unfold reading
  refine .record (List.forall_mem_cons.mpr ⟨.string _, List.forall_mem_singleton.mpr ?_⟩)
  exact .array (List.forall_mem_cons.mpr ⟨.null, List.forall_mem_singleton.mpr (.number real)⟩)

/-- Deep inside of records a negative zero comes before the other zero and this before what is no
number, so that no two of them tie. -/
theorem compare_readings :
    (reading (.ofMagnitude true 0)).compare (reading .zero) = .lt ∧
    (reading .zero).compare (reading .notANumber) = .lt ∧
    (reading (.ofMagnitude true 0)).compare (reading .notANumber) ≠ .gt ∧
    (reading (.ofMagnitude true 0)).compare (reading .notANumber) ≠ .eq ∧
    (reading .notANumber).EntityFree ∧
    ∀ other, (reading .notANumber).compare other = .eq → reading .notANumber = other := by
  have zeros : (reading (.ofMagnitude true 0)).compare (reading .zero) = .lt := by decide
  have above : (reading .zero).compare (reading .notANumber) = .lt := by decide
  obtain ⟨_, _, transitive, _⟩ :=
    compare_total_preorder (reading (.ofMagnitude true 0)) (reading .zero) (reading .notANumber)
  obtain ⟨notAbove, tie⟩ := transitive (by rw [zeros]; decide) (by rw [above]; decide)
  refine ⟨zeros, above, notAbove, ?_, entityFree_reading _, ?_⟩
  · intro equal
    rw [(tie.mp equal).1] at zeros
    cases zeros
  · intro other
    exact (compare_total_preorder (reading .notANumber) other .null).2.2.2 (entityFree_reading _)

end Value

end EntityCursor
