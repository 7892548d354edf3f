import EntityCursor.Pipeline.Stage
import EntityCursor.Proofs.Descriptor.Rows

/-!
Narrowing to columns. A row that the remote engine has narrowed, an entity and a record become a
record of columns in three different ways, and each is meant to give the record with exactly the
listed columns, null where there is nothing under a column. An entity keeps its fields while they
are read, so that it always does. A row and a record lose a column at its first mention: at the
second one the row has null in its place, and the record has no such field. Whether the ways agree
depends on the repeated columns only.
-/

namespace EntityCursor

def Value.ofColumn (row : Row) (name : String) : Value :=
  .ofJson ((Fields.get? name row).getD .null)

theorem Value.getD_map_ofJson (row : Row) (name : String) :
    ((Fields.get? name row).map ofJson).getD .null = ofColumn row name := by
  rw [ofColumn]
  cases Fields.get? name row <;> rfl

/-! Rows. -/

theorem Registry.hasExactly_columnsOf {row : Row} (ascending : Fields.Ascending row)
    (columns : List String) :
    Fields.HasExactly columns
      (fun name => if columns.count name = 1 then Value.ofColumn row name else .null)
      (Value.ofJsonMembers (columnsOf columns row [])) := by
  refine ⟨Value.ascending_ofJsonMembers (ascending_columnsOf columns row), ?_⟩
  intro name
  rw [Value.get?_ofJsonMembers, get?_columnsOf ascending]
  by_cases listed : name ∈ columns
  · by_cases once : columns.count name = 1
    · simp [listed, once, Value.ofColumn]
    · simp [listed, once, Value.ofJson]
  · simp [listed]

/-! Entities. -/

@[simp]
theorem Entity.hasExactly_project (entity : Entity) (columns : List String) :
    Fields.HasExactly columns (fun name => (entity.get? name).getD .null)
      (entity.project columns) :=
  .ofList_map _ columns

/-! Records. -/

theorem projectRecord_of_covered {columns : List String} (distinct : columns.Nodup)
    {record narrowed : Record} (covered : ∀ name ∈ columns, name ∈ Fields.names record)
    (ascending : Fields.Ascending narrowed) :
    ∃ result, projectRecord columns record narrowed = .ok result ∧ Fields.Ascending result ∧
      ∀ name, Fields.get? name result =
        if name ∈ columns then Fields.get? name record else Fields.get? name narrowed := by
  induction columns generalizing record narrowed with
  | nil => exact ⟨narrowed, rfl, ascending, by simp⟩
  | cons column rest inductionHypothesis =>
      obtain ⟨fresh, distinctRest⟩ := List.nodup_cons.mp distinct
      obtain ⟨value, found⟩ := Option.isSome_iff_exists.mp
        (Fields.get?_isSome_iff_mem_names.mpr (covered column List.mem_cons_self))
      -- The column is taken out of the record, which the columns after it do not miss.
      have coveredRest : ∀ name ∈ rest, name ∈ Fields.names (Fields.erase column record) := by
        intro name member
        have different : name ≠ column := by
          rintro rfl
          exact fresh member
        rw [← Fields.get?_isSome_iff_mem_names, Fields.get?_erase_of_ne different,
          Fields.get?_isSome_iff_mem_names]
        exact covered name (List.mem_cons_of_mem _ member)
      obtain ⟨result, projected, resultAscending, looked⟩ :=
        inductionHypothesis distinctRest coveredRest (Fields.ascending_set column value ascending)
      refine ⟨result, ?_, resultAscending, ?_⟩
      · rw [projectRecord, found]
        exact projected
      · intro name
        rw [looked]
        by_cases later : name ∈ rest
        · have different : name ≠ column := by
            rintro rfl
            exact fresh later
          simp [later, Fields.get?_erase_of_ne different]
        · by_cases same : name = column
          · subst same
            simp [later, found]
          · simp [later, same, Fields.get?_set_of_ne same]

theorem projectRecord_of_missing {columns : List String} {record : Record} (narrowed : Record)
    {name : String} (listed : name ∈ columns) (missing : name ∉ Fields.names record) :
    ∃ failure, projectRecord columns record narrowed = .error failure := by
  induction columns generalizing record narrowed with
  | nil => cases listed
  | cons column rest inductionHypothesis =>
      rw [projectRecord]
      split
      · exact ⟨_, rfl⟩
      · next value found =>
          have different : name ≠ column := by
            rintro rfl
            rw [← Fields.get?_eq_none_iff_not_mem_names, found] at missing
            cases missing
          apply inductionHypothesis
          · exact (List.mem_cons.mp listed).resolve_left different
          · rw [← Fields.get?_eq_none_iff_not_mem_names, Fields.get?_erase_of_ne different,
              Fields.get?_eq_none_iff_not_mem_names]
            exact missing

/-- What a record has lost it cannot give a second time. -/
theorem projectRecord_of_repeated {columns : List String} (repeated : ¬ columns.Nodup)
    {record : Record} (ascending : Fields.Ascending record) (narrowed : Record) :
    ∃ failure, projectRecord columns record narrowed = .error failure := by
  induction columns generalizing record narrowed with
  | nil => exact absurd List.nodup_nil repeated
  | cons column rest inductionHypothesis =>
      rw [projectRecord]
      split
      · exact ⟨_, rfl⟩
      · by_cases later : column ∈ rest
        · apply projectRecord_of_missing _ later
          rw [← Fields.get?_eq_none_iff_not_mem_names]
          exact Fields.get?_erase_self ascending
        · have repeatedRest : ¬ rest.Nodup := by
            intro distinctRest
            exact repeated (List.nodup_cons.mpr ⟨later, distinctRest⟩)
          exact inductionHypothesis repeatedRest (Fields.ascending_erase column ascending) _

theorem hasNames_projectRecord {columns listed : List String} {record narrowed result : Record}
    (has : Fields.HasNames listed narrowed)
    (projected : projectRecord columns record narrowed = .ok result) :
    Fields.HasNames (columns ++ listed) result := by
  induction columns generalizing record narrowed listed with
  | nil =>
      cases projected
      exact has
  | cons column rest inductionHypothesis =>
      rw [projectRecord] at projected
      split at projected
      · cases projected
      · refine (inductionHypothesis (has.set column _) projected).congr ?_
        simp [or_left_comm]

/-- Narrowing a record that holds every listed column gives all of them exactly if none is
repeated. -/
theorem project_record_iff {columns : List String} {record wanted : Record}
    {entryOf : String → Value} (ascending : Fields.Ascending record)
    (holds : ∀ name ∈ columns, Fields.get? name record = some (entryOf name))
    (exact : Fields.HasExactly columns entryOf wanted) :
    (Value.record record).project columns = .ok (.record wanted) ↔ columns.Nodup := by
  constructor
  · intro projected
    by_cases distinct : columns.Nodup
    · exact distinct
    · obtain ⟨failure, refused⟩ := projectRecord_of_repeated distinct ascending []
      rw [Value.project, refused] at projected
      cases projected
  · intro distinct
    have covered : ∀ name ∈ columns, name ∈ Fields.names record := by
      intro name member
      rw [← Fields.get?_isSome_iff_mem_names, holds name member]
      rfl
    obtain ⟨result, projected, resultAscending, looked⟩ :=
      projectRecord_of_covered distinct covered Fields.ascending_nil
    have same : result = wanted := by
      apply Fields.eq_of_get?_eq resultAscending exact.ascending
      intro name
      rw [looked, exact.get?_eq]
      by_cases listed : name ∈ columns
      · rw [if_pos listed, if_pos listed, holds name listed]
      · rw [if_neg listed, if_neg listed]
        rfl
    rw [Value.project, projected, same]
    rfl

theorem Value.hasNames_project {columns : List String} {element projected : Value}
    (success : element.project columns = .ok projected) :
    ∃ fields, projected = .record fields ∧ Fields.HasNames columns fields := by
  cases element with
  | entity name fields =>
      cases success
      exact ⟨_, rfl, (Entity.hasExactly_project _ columns).hasNames⟩
  | record fields =>
      obtain ⟨result, narrowed, rfl⟩ := Outcome.map_eq_ok.mp success
      exact ⟨result, rfl, (hasNames_projectRecord .nil narrowed).congr (by simp)⟩
  | _ => cases success

/-! The three ways. -/

/-- The record with exactly the listed columns of a row is what narrowing an entity with these
fields gives. It is what narrowing the row gives exactly if the row has nothing but null under the
repeated columns, and what narrowing a record with these columns gives exactly if no column is
repeated. -/
theorem narrowings_agree_iff (registry : Registry) (entity : String) {row : Row}
    (ascending : Fields.Ascending row) (columns : List String) :
    ∃ taken wanted : Record,
      registry.element entity row (some columns) = .ok (.record taken) ∧
      Fields.HasExactly columns
        (fun name => if columns.count name = 1 then Value.ofColumn row name else .null) taken ∧
      Fields.HasExactly columns (Value.ofColumn row) wanted ∧
      (taken = wanted ↔ ∀ name, 1 < columns.count name → Value.ofColumn row name = .null) ∧
      (∀ whole : Entity,
        (∀ name ∈ columns, whole.get? name = (Fields.get? name row).map Value.ofJson) →
          whole.project columns = wanted) ∧
      ∀ record : Record, Fields.Ascending record →
        (∀ name ∈ columns, Fields.get? name record = some (Value.ofColumn row name)) →
          ((Value.record record).project columns = .ok (.record wanted) ↔ columns.Nodup) := by
  have taken := Registry.hasExactly_columnsOf ascending columns
  have wanted := Fields.HasExactly.ofList_map (Value.ofColumn row) columns
  refine ⟨_, _, rfl, taken, wanted, ?_, ?_, ?_⟩
  · rw [taken.eq_iff wanted]
    constructor
    · intro same name repeated
      have held := same name (List.count_pos_iff.mp (Nat.lt_of_succ_lt repeated))
      rw [if_neg (Nat.ne_of_gt repeated)] at held
      exact held.symm
    · intro empty name listed
      split
      · rfl
      · next counted =>
          have present := List.count_pos_iff.mpr listed
          exact (empty name (by omega)).symm
  · intro whole sameFields
    apply ((whole.hasExactly_project columns).eq_iff wanted).mpr
    intro name listed
    rw [sameFields name listed, Value.getD_map_ofJson]
  · intro record recordAscending holds
    exact project_record_iff recordAscending holds wanted

/-- One column of one row is the same in all three ways. -/
theorem narrowings_of_one_column :
    Fields.Ascending [("name", Json.string "Ada")] ∧
    ∃ narrowed : Record,
      Registry.empty.element "Person" [("name", .string "Ada")] (some ["name"]) =
        .ok (.record narrowed) ∧
      (Entity.mk "Person" [("name", .string "Ada")]).project ["name"] = narrowed ∧
      (Value.record [("name", .string "Ada")]).project ["name"] = .ok (.record narrowed) := by
  have ascending : Fields.Ascending [("name", Json.string "Ada")] := List.pairwise_singleton _ _
  obtain ⟨taken, wanted, read, _, _, same, entity, record⟩ :=
    narrowings_agree_iff Registry.empty "Person" ascending ["name"]
  have agreed : taken = wanted := by
    apply same.mpr
    intro name repeated
    have counted : ["name"].count name ≤ ["name"].length := List.count_le_length
    exact absurd repeated (Nat.not_lt_of_le counted)
  refine ⟨ascending, wanted, agreed ▸ read, ?_, ?_⟩
  · apply entity
    intro name listed
    rw [List.mem_singleton.mp listed]
    rfl
  · apply (record [("name", .string "Ada")] (List.pairwise_singleton _ _) ?_).mpr (by decide)
    intro name listed
    rw [List.mem_singleton.mp listed]
    rfl

/-- A column that is listed twice is lost from a row, kept from an entity and refused from a record.
-/
theorem narrowings_of_repeated_column :
    Registry.empty.element "Person" [("name", .string "Ada")] (some ["name", "name"]) =
      .ok (.record [("name", .null)]) ∧
    (Entity.mk "Person" [("name", .string "Ada")]).project ["name", "name"] =
      [("name", .string "Ada")] ∧
    (Value.record [("name", .string "Ada")]).project ["name", "name"] =
      .error (.fieldNotSelected "name") :=
  ⟨rfl, rfl, rfl⟩

end EntityCursor
