import EntityCursor.Channel.TableEngine
import EntityCursor.Proofs.Outcome
import EntityCursor.Proofs.Pipeline.Refinement
import EntityCursor.Proofs.Query.SortKey

/-!
Sorting in the process and on the engine. Both put what they are given in the order of the keys and
lose nothing, and both rest on one comparison, which is a total preorder for every list of keys. The
process reads the keys off elements and refuses an element that lacks one, while the engine reads
them off rows and takes a missing field for null.
-/

namespace EntityCursor

namespace Value

/-- The value of a field, and null also where the field cannot be read. -/
def fieldValue (element : Value) (field : String) : Value :=
  (element.fieldOrNull field).toOption.getD .null

def keyValue (element : Value) (key : SortKey) : Value := element.fieldValue key.field

theorem fieldOrNull_eq {element : Value} {field : String}
    (readable : ∃ value, element.fieldOrNull field = .ok value) :
    element.fieldOrNull field = .ok (element.fieldValue field) := by
  obtain ⟨value, read⟩ := readable
  rw [fieldValue, read]
  rfl

theorem keyValues_eq {element : Value} {keys : List SortKey}
    (readable : ∀ key ∈ keys, ∃ value, element.fieldOrNull key.field = .ok value) :
    element.keyValues keys = .ok (keys.map element.keyValue) := by
  induction keys with
  | nil => rfl
  | cons key rest inductionHypothesis =>
      obtain ⟨here, later⟩ := List.forall_mem_cons.mp readable
      rw [keyValues, fieldOrNull_eq here, inductionHypothesis later]
      rfl

end Value

theorem sortByKeys_map (keys : List SortKey) (elements : List Value) :
    sortByKeys keys (elements.map fun element => (keys.map element.keyValue, element)) =
      elements.mergeSort fun left right =>
        SortKey.compareBy keys Value.keyValue left right != .gt := by
  rw [sortByKeys, ← List.map_mergeSort, List.map_map]
  · exact List.map_id _
  · intro left _ right _
    rfl

namespace Course

variable {Mark : Type}

theorem answer_sorted {course : Course Value Mark} {elements : List Value} {keys : List SortKey}
    (answered : course.answer = .ok elements)
    (readable : ∀ element ∈ elements, ∀ key ∈ keys,
      ∃ value, element.fieldOrNull key.field = .ok value) :
    (course.sorted keys).answer =
      .ok (elements.mergeSort fun left right =>
        SortKey.compareBy keys Value.keyValue left right != .gt) := by
  obtain ⟨ends, rfl⟩ := answer_eq_ok.mp answered
  have keyed : ∀ element ∈ course.elements.map Prod.fst,
      key keys element = .ok (keys.map element.keyValue, element) := by
    intro element member
    rw [key, Value.keyValues_eq (readable element member)]
    rfl
  rw [sorted, attempt_of_ok keyed, ends]
  simp only [answer, List.map_map, Function.comp_def, List.map_id']
  rw [← sortByKeys_map, List.map_map]
  rfl

end Course

/-- Sorting loses nothing and puts everything in the order of all keys, in the process, where every
element must have every key, and on the engine, where rows that no key tells apart keep their order.
The comparison of both is a total preorder for every list of keys. -/
theorem sorts_by_all_keys (keys : List SortKey) :
    (∀ {State World Mark : Type} {source : Puller State World} {mark : State → World → Mark}
      {state : State} {world : World} {upstream : Course Value Mark} {elements : List Value},
      source.Runs mark state world upstream → upstream.answer = .ok elements →
      (∀ element ∈ elements, ∀ key ∈ keys, ∃ value, element.fieldOrNull key.field = .ok value) →
      ∃ delivered sorted,
        (source.stage (.sortBy keys)).Runs (fun running world => mark running.2 world)
          ((Operator.sortBy keys).start, state) world delivered ∧
        delivered.answer = .ok sorted ∧
        SortKey.Arranges keys Value.keyValue elements sorted) ∧
    (∀ {tables : Fields (List Row)} {inner : Query} {rows : List Row},
      TableEngine.execute tables inner = .ok rows →
      ∃ sorted, TableEngine.execute tables (.sort keys inner) = .ok sorted ∧
        SortKey.Arranges keys TableEngine.keyValue rows sorted ∧
        ∀ row, (sorted.filter fun other =>
            SortKey.ties keys (TableEngine.keyValue row) (TableEngine.keyValue other)) =
          rows.filter fun other =>
            SortKey.ties keys (TableEngine.keyValue row) (TableEngine.keyValue other)) ∧
    (Std.TransCmp fun left right : SortKey.Values keys =>
      SortKey.compareAll keys left.1 right.1) ∧
    Std.TransCmp (TableEngine.rowOrder keys) := by
  refine ⟨?_, ?_, SortKey.transCmp_values keys, SortKey.transCmp_compareBy keys _⟩
  · intro State World Mark source mark state world upstream elements runs answered readable
    exact ⟨_, _, runs.stage (.sortBy keys), Course.answer_sorted answered readable,
      SortKey.arranges_mergeSort keys Value.keyValue elements⟩
  · intro tables inner rows executed
    refine ⟨TableEngine.sortRows keys rows, ?_, ?_, ?_⟩
    · rw [TableEngine.execute, executed]
      rfl
    · exact SortKey.arranges_mergeSort keys TableEngine.keyValue rows
    · exact fun row => SortKey.filter_mergeSort_ties keys TableEngine.keyValue row rows

def travellers : List Value :=
  [.entity "Traveller" [("age", .number (.ofNat 41)), ("name", .string "Ada")],
    .entity "Traveller" [("age", .number (.ofNat 41)), ("name", .string "Bo")],
    .entity "Traveller" [("name", .string "Cy")]]

def byAgeAndName : List SortKey := [⟨"age", true⟩, ⟨"name", false⟩, ⟨"age", false⟩]

/-- An age that is not set counts as null, and a key may come twice. -/
theorem travellers_by_age_and_name :
    (∀ element ∈ travellers, ∀ key ∈ byAgeAndName,
      ∃ value, element.fieldOrNull key.field = .ok value) ∧
    ∃ (delivered : Course Value (List Value)) (sorted : List Value),
      ((Puller.listing none).stage (.sortBy byAgeAndName)).Runs (fun running _ => running.2)
        ((Operator.sortBy byAgeAndName).start, travellers) () delivered ∧
      delivered.answer = .ok sorted ∧
      SortKey.Arranges byAgeAndName Value.keyValue travellers sorted := by
  have readable : ∀ element ∈ travellers, ∀ key ∈ byAgeAndName,
      ∃ value, element.fieldOrNull key.field = .ok value := by
    simp only [travellers, byAgeAndName, List.forall_mem_cons, List.not_mem_nil, false_imp_iff,
      implies_true, and_true]
    exact ⟨⟨⟨_, rfl⟩, ⟨_, rfl⟩, ⟨_, rfl⟩⟩, ⟨⟨_, rfl⟩, ⟨_, rfl⟩, ⟨_, rfl⟩⟩,
      ⟨_, rfl⟩, ⟨_, rfl⟩, ⟨_, rfl⟩⟩
  have runs := Puller.runs_listing none travellers ()
  exact ⟨readable, (sorts_by_all_keys byAgeAndName).1 runs rfl readable⟩

end EntityCursor
