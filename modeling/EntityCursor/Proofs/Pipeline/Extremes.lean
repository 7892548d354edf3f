import EntityCursor.Proofs.Pipeline.Sorting
import Mathlib.Data.List.Induction

/-!
Smallest and largest values. What has accumulated after some candidates is the first extreme one
among them: a candidate takes the place of the value before it only if it goes further, so that of
several values that tie the first one stays. Nulls are passed over.
-/

namespace EntityCursor

namespace Value

variable {wanted : Ordering} {values seen : List Value} {value : Value} {accumulated : Option Value}

/-- A value other than null that compares as wanted to all others than null, or ties with them. -/
structure IsExtreme (wanted : Ordering) (values : List Value) (value : Value) : Prop where
  defined : value.isNull = false
  compares : ∀ other ∈ values, other.isNull = false →
    value.compare other = wanted ∨ value.compare other = .eq

/-- The first extreme value of a list. There is none exactly if all values are null. -/
def FirstExtreme (wanted : Ordering) (values : List Value) : Option Value → Prop
  | none => ∀ value ∈ values, value.isNull = true
  | some found => ∃ front back, values = front ++ found :: back ∧ IsExtreme wanted values found ∧
      ∀ earlier ∈ front, ¬ IsExtreme wanted values earlier

theorem compare_wanted_trans {first second third : Value} (here : first.compare second = wanted)
    (later : second.compare third = wanted ∨ second.compare third = .eq) :
    first.compare third = wanted := by
  rcases later with further | tie
  · cases wanted with
    | lt => exact Std.TransCmp.lt_trans here further
    | eq => exact Std.TransCmp.eq_trans here further
    | gt => exact Std.TransCmp.gt_trans here further
  · rw [← Std.TransCmp.congr_right tie, here]

theorem isExtreme_append_iff {candidate : Value} :
    IsExtreme wanted (seen ++ [candidate]) value ↔
      IsExtreme wanted seen value ∧
        (candidate.isNull = false →
          value.compare candidate = wanted ∨ value.compare candidate = .eq) := by
  constructor
  · rintro ⟨defined, compares⟩
    exact ⟨⟨defined, fun other member => compares other (List.mem_append_left _ member)⟩,
      compares candidate (List.mem_append_right _ List.mem_cons_self)⟩
  · rintro ⟨⟨defined, compares⟩, last⟩
    refine ⟨defined, fun other member => ?_⟩
    rcases List.mem_append.mp member with before | same
    · exact compares other before
    · rw [List.mem_singleton.mp same]
      exact last

/-- A value that stays extreme is the first extreme one after one more candidate too. -/
theorem FirstExtreme.append {found candidate : Value}
    (first : FirstExtreme wanted seen (some found))
    (stays : candidate.isNull = false →
      found.compare candidate = wanted ∨ found.compare candidate = .eq) :
    FirstExtreme wanted (seen ++ [candidate]) (some found) := by
  obtain ⟨front, back, rfl, extreme, noEarlier⟩ := first
  refine ⟨front, back ++ [candidate], by simp, isExtreme_append_iff.mpr ⟨extreme, stays⟩, ?_⟩
  intro earlier member isExtreme
  exact noEarlier earlier member (isExtreme_append_iff.mp isExtreme).1

/-- A candidate that goes further than the extreme value before it is the only extreme one. -/
theorem FirstExtreme.replace {found candidate : Value} (strict : wanted ≠ .eq)
    (first : FirstExtreme wanted seen (some found)) (defined : candidate.isNull = false)
    (further : candidate.compare found = wanted) :
    FirstExtreme wanted (seen ++ [candidate]) (some candidate) := by
  obtain ⟨_, _, _, extreme, _⟩ := first
  have beyond : ∀ other ∈ seen, other.isNull = false → candidate.compare other = wanted :=
    fun other member isDefined => compare_wanted_trans further
      (extreme.compares other member isDefined)
  refine ⟨seen, [], rfl, isExtreme_append_iff.mpr ⟨⟨defined, ?_⟩, ?_⟩, ?_⟩
  · exact fun other member isDefined => .inl (beyond other member isDefined)
  · exact fun _ => .inr candidate.compare_self
  · intro earlier member isExtreme
    obtain ⟨before, last⟩ := isExtreme_append_iff.mp isExtreme
    have swapped := candidate.compare_swap earlier
    rw [beyond earlier member before.defined] at swapped
    rw [swapped] at last
    cases wanted <;> simp_all

theorem FirstExtreme.begin {candidate : Value} (nulls : FirstExtreme wanted seen none)
    (defined : candidate.isNull = false) :
    FirstExtreme wanted (seen ++ [candidate]) (some candidate) := by
  refine ⟨seen, [], rfl, ⟨defined, ?_⟩, ?_⟩
  · intro other member isDefined
    rcases List.mem_append.mp member with before | same
    · rw [nulls other before] at isDefined
      cases isDefined
    · rw [List.mem_singleton.mp same]
      exact .inr candidate.compare_self
  · intro earlier member isExtreme
    have isNull := nulls earlier member
    rw [isExtreme.defined] at isNull
    cases isNull

theorem FirstExtreme.step (strict : wanted ≠ .eq) (first : FirstExtreme wanted seen accumulated)
    (candidate : Value) :
    FirstExtreme wanted (seen ++ [candidate]) (keepExtreme wanted accumulated candidate) := by
  unfold keepExtreme
  cases defined : candidate.isNull with
  | true =>
      rw [if_pos rfl]
      cases accumulated with
      | none => exact List.forall_mem_append.mpr ⟨first, List.forall_mem_singleton.mpr defined⟩
      | some found =>
          apply first.append
          rw [defined]
          nofun
  | false =>
      rw [if_neg Bool.false_ne_true]
      cases accumulated with
      | none => exact first.begin defined
      | some found =>
          dsimp only
          split
          · next further => exact first.replace strict defined further
          · next notFurther =>
              apply first.append
              intro _
              rw [candidate.compare_swap found]
              cases wanted <;> cases order : candidate.compare found <;> simp_all

/-- What has accumulated after all values is the first extreme one. -/
theorem firstExtreme_foldl (strict : wanted ≠ .eq) (values : List Value) :
    FirstExtreme wanted values (values.foldl (keepExtreme wanted) none) := by
  induction values using List.reverseRecOn with
  | nil => exact fun _ member => absurd member List.not_mem_nil
  | append_singleton seen candidate inductionHypothesis =>
      rw [List.foldl_append]
      exact inductionHypothesis.step strict candidate

/-! Sorted values. -/

def candidates (values : List Value) : List Value := values.filter fun value => !value.isNull

@[simp]
theorem mem_candidates_iff : value ∈ candidates values ↔ value ∈ values ∧ value.isNull = false := by
  simp [candidates]

/-- If nothing goes further than what comes before it, the extreme value ties with the first
candidate. -/
theorem FirstExtreme.ties_head? (first : FirstExtreme wanted values accumulated)
    {ordered : List Value} (perm : ordered.Perm (candidates values))
    (descending : ordered.Pairwise fun earlier later => earlier.compare later ≠ wanted.swap) :
    Option.Rel (fun found value => found.compare value = .eq) accumulated ordered.head? := by
  cases accumulated with
  | none =>
      have empty : candidates values = [] := by
        apply List.eq_nil_iff_forall_not_mem.mpr
        intro value member
        obtain ⟨present, defined⟩ := mem_candidates_iff.mp member
        rw [first value present] at defined
        cases defined
      rw [empty] at perm
      rw [perm.eq_nil]
      exact .none
  | some found =>
      obtain ⟨front, back, split, extreme, _⟩ := first
      have present : found ∈ ordered := perm.mem_iff.mpr <|
        mem_candidates_iff.mpr ⟨by rw [split]; simp, extreme.defined⟩
      cases ordered with
      | nil => cases present
      | cons head rest =>
          obtain ⟨headPresent, headDefined⟩ :=
            mem_candidates_iff.mp (perm.mem_iff.mp List.mem_cons_self)
          refine .some ?_
          rcases List.mem_cons.mp present with rfl | later
          · exact found.compare_self
          · have notFurther := (List.pairwise_cons.mp descending).1 found later
            rw [found.compare_swap head] at notFurther
            exact (extreme.compares head headPresent headDefined).resolve_left
              fun further => notFurther (congrArg Ordering.swap further)

/-! Elements in the order of a field. -/

variable {field : String} {elements arranged : List Value}

theorem candidates_perm (perm : arranged.Perm elements) (field : String) :
    (candidates (arranged.map (·.fieldValue field))).Perm
      (candidates (elements.map (·.fieldValue field))) :=
  (perm.map _).filter _

theorem candidates_ascending
    (arranges : SortKey.Arranges [⟨field, true⟩] keyValue elements arranged) :
    (candidates (arranged.map (·.fieldValue field))).Pairwise
      fun earlier later => earlier.compare later ≠ .gt := by
  apply List.Pairwise.filter
  apply List.pairwise_map.mpr
  apply arranges.ordered.imp
  intro earlier later ordered
  exact SortKey.inOrder_singleton_iff.mp ordered

theorem FirstExtreme.ties_first {least : Option Value}
    (first : FirstExtreme .lt (elements.map (·.fieldValue field)) least)
    (arranges : SortKey.Arranges [⟨field, true⟩] keyValue elements arranged) :
    Option.Rel (fun found value => found.compare value = .eq) least
      (candidates (arranged.map (·.fieldValue field))).head? :=
  first.ties_head? (candidates_perm arranges.perm field) (candidates_ascending arranges)

theorem FirstExtreme.ties_last {greatest : Option Value}
    (first : FirstExtreme .gt (elements.map (·.fieldValue field)) greatest)
    (arranges : SortKey.Arranges [⟨field, true⟩] keyValue elements arranged) :
    Option.Rel (fun found value => found.compare value = .eq) greatest
      (candidates (arranged.map (·.fieldValue field))).getLast? := by
  rw [← List.head?_reverse]
  apply first.ties_head?
  · exact (List.reverse_perm _).trans (candidates_perm arranges.perm field)
  · apply List.pairwise_reverse.mpr
    apply (candidates_ascending arranges).imp
    intro earlier later notAbove below
    rw [later.compare_swap earlier] at notAbove
    exact notAbove (congrArg Ordering.swap below)

end Value

/-! Aggregates over a course. -/

/-- An aggregation looks for the first extreme value in a direction. -/
inductive Aggregation.Seeks : Aggregation → Ordering → Prop where
  | least : Seeks .least .lt
  | greatest : Seeks .greatest .gt

theorem Aggregation.Seeks.strict {aggregation : Aggregation} {wanted : Ordering}
    (seeks : aggregation.Seeks wanted) : wanted ≠ .eq := by
  cases seeks <;> simp

namespace Course

variable {Element Result Mark : Type}

theorem fold_of_ok {step : Result → Element → Outcome Result} {next : Result → Element → Result}
    (steps : ∀ result element, step result element = .ok (next result element))
    {course : Course Element Mark} (ends : course.failure = none) (result : Result) :
    course.fold step result =
      (.ok ((course.elements.map Prod.fst).foldl next result), course.finish) := by
  obtain ⟨start, elements, failure, finish⟩ := course
  obtain rfl : failure = none := ends
  rw [fold]
  induction elements generalizing result with
  | nil => rfl
  | cons pair rest inductionHypothesis =>
      obtain ⟨element, mark⟩ := pair
      simp only [foldFrom, steps]
      exact inductionHypothesis (next result element)

theorem aggregated_of_seeks {aggregation : Aggregation} {wanted : Ordering}
    (seeks : aggregation.Seeks wanted) {course : Course Value Mark} {elements : List Value}
    {field : String} (answered : course.answer = .ok elements)
    (readable : ∀ element ∈ elements, ∃ value, element.fieldOrNull field = .ok value) :
    ∃ found, Value.FirstExtreme wanted (elements.map (·.fieldValue field)) found ∧
      course.aggregated field aggregation =
        .cons course.start (found.getD .null) ⟨course.finish, [], none, course.finish⟩ := by
  obtain ⟨ends, rfl⟩ := answer_eq_ok.mp answered
  refine ⟨_, Value.firstExtreme_foldl seeks.strict _, ?_⟩
  have read : ∀ element ∈ course.elements.map Prod.fst,
      element.fieldOrNull field = .ok (element.fieldValue field) :=
    fun element member => Value.fieldOrNull_eq (readable element member)
  have steps : ∀ accumulated candidate, aggregation.step accumulated candidate =
      .ok (keepExtreme wanted accumulated candidate) := by
    cases seeks <;> exact fun _ _ => rfl
  have initial : aggregation.initial = none := by
    cases seeks <;> rfl
  have attempted := attempt_of_ok read
  have attemptEnds : (course.attempt fun element => element.fieldOrNull field).failure = none := by
    rw [attempted]
    exact ends
  rw [aggregated, fold_of_ok steps attemptEnds, attempted, initial]
  simp only [List.map_map, Function.comp_def]
  rfl

end Course

end EntityCursor
