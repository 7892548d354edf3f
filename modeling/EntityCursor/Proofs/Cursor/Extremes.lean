import EntityCursor.Proofs.Cursor.Unfolding
import EntityCursor.Proofs.Pipeline.Extremes

/-!
The smallest and the largest value of a field. Asking a cursor for one of them puts an aggregate on
top of its chain, which stays in the process and takes the first element of the longer cursor. Where
the elements can be gathered and the field can be read on all of them, this cannot fail, on whatever
channel: the aggregate uses up the same course, and the query is closed in the same state.
-/

namespace EntityCursor

theorem Value.FirstExtreme.defined_eq {wanted : Ordering} {values : List Value}
    {found : Option Value} (first : FirstExtreme wanted values found) :
    Cursor.defined (some (found.getD .null)) = found := by
  cases found with
  | none => rfl
  | some value =>
      obtain ⟨_, _, _, extreme, _⟩ := first
      cases value with
      | null => cases extreme.defined
      | _ => rfl

namespace Cursor

variable {State : Type} {cursor : Cursor} {store : Store State} {request : Request}
  {world : World State} {field : String} {elements : List Value}

theorem first_of_seeks {aggregation : Aggregation} {wanted : Ordering}
    (seeks : aggregation.Seeks wanted)
    (answered : (cursor.toArray store request world).1 = .ok elements)
    (readable : ∀ element ∈ elements, ∃ value, element.fieldOrNull field = .ok value) :
    ∃ found, Value.FirstExtreme wanted (elements.map (·.fieldValue field)) found ∧
      ((cursor.extend (.aggregate field aggregation)).first store request world).1.map defined =
        .ok found := by
  obtain ⟨course, unfolds, gathered, closes⟩ := unfolds_of_toArray answered
  obtain ⟨found, extreme, aggregated⟩ := Course.aggregated_of_seeks seeks gathered readable
  have longer : (cursor.extend (.aggregate field aggregation)).Unfolds store world.channel
      (course.aggregated field aggregation) := unfolds.extend not_false rfl
  rw [aggregated] at longer
  refine ⟨found, extreme, ?_⟩
  rw [longer.first closes request]
  exact congrArg Except.ok extreme.defined_eq

/-- The smallest and the largest value of a field are the first extreme ones in the order of the
elements, and there are none if every element has null there. They tie with the ends of the elements
in the order of the field, nulls left out. -/
theorem min_and_max_are_extreme
    (answered : (cursor.toArray store request world).1 = .ok elements)
    (readable : ∀ element ∈ elements, ∃ value, element.fieldOrNull field = .ok value) :
    ∃ least greatest,
      (cursor.min store request field world).1 = .ok least ∧
      (cursor.max store request field world).1 = .ok greatest ∧
      Value.FirstExtreme .lt (elements.map (·.fieldValue field)) least ∧
      Value.FirstExtreme .gt (elements.map (·.fieldValue field)) greatest ∧
      ∀ arranged, SortKey.Arranges [⟨field, true⟩] Value.keyValue elements arranged →
        Option.Rel (fun found value => found.compare value = .eq) least
            (Value.candidates (arranged.map (·.fieldValue field))).head? ∧
          Option.Rel (fun found value => found.compare value = .eq) greatest
            (Value.candidates (arranged.map (·.fieldValue field))).getLast? := by
  obtain ⟨least, isLeast, leastGiven⟩ := first_of_seeks .least answered readable
  obtain ⟨greatest, isGreatest, greatestGiven⟩ := first_of_seeks .greatest answered readable
  refine ⟨least, greatest, leastGiven, greatestGiven, isLeast, isGreatest, ?_⟩
  intro arranged arranges
  exact ⟨isLeast.ties_first arranges, isGreatest.ties_last arranges⟩

def traveller : EntityDescriptor :=
  ⟨"Traveller", [{ name := "age", kind := .number, isOptional := true },
    { name := "name", kind := .string }]⟩

def travellerStore : Store TableEngine := TableEngine.store ⟨[("Traveller", traveller)]⟩

def threeTravellers : World TableEngine where
  channel := TableEngine.insert {} "Traveller"
    [.object [("age", .integer 41), ("name", .string "Ada")],
      .object [("age", .null), ("name", .string "Bo")],
      .object [("age", .integer 30), ("name", .string "Cy")]]

def deliveredTravellers : List Value :=
  [.entity "Traveller" [("age", .number (.ofNat 41)), ("name", .string "Ada")],
    .entity "Traveller" [("age", .null), ("name", .string "Bo")],
    .entity "Traveller" [("age", .number (.ofNat 30)), ("name", .string "Cy")]]

/-- The age that is not set is passed over. -/
theorem ages_of_three_travellers :
    ((ofEntity {} "Traveller").toArray travellerStore (.internal "ages") threeTravellers).1 =
      .ok deliveredTravellers ∧
    (∀ element ∈ deliveredTravellers, ∃ value, element.fieldOrNull "age" = .ok value) ∧
    ∃ least greatest,
      ((ofEntity {} "Traveller").min travellerStore (.internal "ages") "age" threeTravellers).1 =
        .ok least ∧
      ((ofEntity {} "Traveller").max travellerStore (.internal "ages") "age" threeTravellers).1 =
        .ok greatest ∧
      Value.FirstExtreme .lt (deliveredTravellers.map (·.fieldValue "age")) least ∧
      Value.FirstExtreme .gt (deliveredTravellers.map (·.fieldValue "age")) greatest ∧
      least = some (.number (.ofNat 30)) ∧ greatest = some (.number (.ofNat 41)) := by
  have answered : ((ofEntity {} "Traveller").toArray travellerStore (.internal "ages")
      threeTravellers).1 = .ok deliveredTravellers := rfl
  have readable : ∀ element ∈ deliveredTravellers,
      ∃ value, element.fieldOrNull "age" = .ok value := by
    simp only [deliveredTravellers, List.forall_mem_cons, List.not_mem_nil, false_imp_iff,
      implies_true, and_true]
    exact ⟨⟨_, rfl⟩, ⟨_, rfl⟩, ⟨_, rfl⟩⟩
  obtain ⟨least, greatest, leastGiven, greatestGiven, isLeast, isGreatest, _⟩ :=
    min_and_max_are_extreme answered readable
  exact ⟨answered, readable, least, greatest, leastGiven, greatestGiven, isLeast, isGreatest,
    Except.ok.inj leastGiven.symm, Except.ok.inj greatestGiven.symm⟩

end Cursor

end EntityCursor
