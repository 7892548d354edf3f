import EntityCursor.Journal.Basic
import EntityCursor.Proofs.Fields
import EntityCursor.Proofs.Json.Source
import EntityCursor.Proofs.Sorting

/-!
Journal lines. Whatever texts are logged, a line has no control characters, so that it stays one
line of the journal, and reading it as a document gives back the event, its severity and all fields,
in the order of their names.
-/

namespace EntityCursor

@[simp]
theorem Severity.read?_name (severity : Severity) : read? severity.name = some severity := by
  cases severity <;> decide +kernel

namespace JournalEntry

/-! Characters. -/

/-- How a character can be written: by a short escape, by its number, or as itself. -/
inductive Escapes (character : Char) : List Char → Prop where
  | short {letter : Char} : Source.shortEscape? letter = some character →
      Escapes character ['\\', letter]
  | code : character.toNat < 0xD800 →
      Escapes character ('\\' :: 'u' :: Text.fourHexDigits character.toNat)
  | plain : character ≠ '"' → character ≠ '\\' → Text.isControl character = false →
      Escapes character [character]

theorem escapes_escaped (character : Char) : Escapes character (escaped character) := by
  unfold escaped
  split
  · next quote =>
      subst quote
      exact .short rfl
  split
  · next backslash =>
      subst backslash
      exact .short rfl
  split
  · next lineFeed =>
      subst lineFeed
      exact .short rfl
  split
  · next carriageReturn =>
      subst carriageReturn
      exact .short rfl
  split
  · next tab =>
      subst tab
      exact .short rfl
  split
  · next control =>
      apply Escapes.code
      simp only [Text.isControl, Bool.or_eq_true, Bool.and_eq_true, decide_eq_true_eq] at control
      omega
  · next noQuote noBackslash _ _ _ printable =>
      exact .plain noQuote noBackslash (Bool.eq_false_iff.mpr printable)

theorem Escapes.spells {character : Char} {written : List Char}
    (escapes : Escapes character written) : Source.Spells written character := by
  cases escapes with
  | short named => exact Source.spells_short named
  | code below =>
      have spelled := Source.spells_code below
      rwa [Char.ofNat_toNat] at spelled
  | plain noQuote noBackslash printable =>
      apply Source.spells_plain noQuote noBackslash
      simp only [Text.isControl, Bool.or_eq_false_iff, decide_eq_false_iff_not] at printable
      omega

theorem isControl_of_shortEscape? {letter character : Char}
    (named : Source.shortEscape? letter = some character) : Text.isControl letter = false := by
  unfold Source.shortEscape? at named
  split at named
  all_goals first | rfl | cases named

theorem Escapes.isControl_eq {character : Char} {written : List Char}
    (escapes : Escapes character written) :
    ∀ part ∈ written, Text.isControl part = false := by
  have backslash : Text.isControl '\\' = false := rfl
  cases escapes with
  | short named =>
      exact List.forall_mem_cons.mpr
        ⟨backslash, List.forall_mem_singleton.mpr (isControl_of_shortEscape? named)⟩
  | code below =>
      exact List.forall_mem_cons.mpr
        ⟨backslash, List.forall_mem_cons.mpr ⟨rfl, Text.isControl_fourHexDigits _⟩⟩
  | plain _ _ printable => exact List.forall_mem_singleton.mpr printable

/-! Lines. -/

theorem isControl_quoted (text : String) :
    ∀ character ∈ quoted text, Text.isControl character = false := by
  intro character member
  simp only [quoted, List.cons_append, List.mem_cons, List.mem_append, List.mem_flatMap,
    List.not_mem_nil, or_false] at member
  rcases member with rfl | ⟨original, _, part⟩ | rfl
  · rfl
  · exact (escapes_escaped original).isControl_eq character part
  · rfl

theorem isControl_member (name value : String) :
    ∀ character ∈ member name value, Text.isControl character = false := by
  intro character inMember
  rcases List.mem_append.mp inMember with inName | inValue
  · exact isControl_quoted name character inName
  · rcases List.mem_cons.mp inValue with rfl | inText
    · rfl
    · exact isControl_quoted value character inText

theorem isControl_line (entry : JournalEntry) :
    ∀ character ∈ entry.line.toList, Text.isControl character = false := by
  intro character inLine
  simp only [line, String.toList_ofList, List.cons_append, List.append_assoc, List.mem_cons,
    List.mem_append, List.mem_flatMap, List.not_mem_nil, or_false] at inLine
  rcases inLine with rfl | inEvent | rfl | inSeverity | ⟨field, _, rfl | inField⟩ | rfl
  · rfl
  · exact isControl_member _ _ character inEvent
  · rfl
  · exact isControl_member _ _ character inSeverity
  · rfl
  · exact isControl_member _ _ character inField
  · rfl

/-! Reading. -/

theorem quoted_append (text : String) (rest : List Char) :
    quoted text ++ rest = '"' :: (text.toList.flatMap escaped ++ '"' :: rest) := by
  simp [quoted]

@[simp]
theorem string?_escaped (text : String) (rest : List Char) :
    Source.string? (text.toList.flatMap escaped ++ '"' :: rest) = some (some text, rest) :=
  Source.string?_of_spells (fun character => (escapes_escaped character).spells) text rest

@[simp]
theorem value?_quoted (fuel depth : Nat) (text : String) (rest : List Char) :
    Source.value? (fuel + 1) depth (quoted text ++ rest) = some (.string text, rest) := by
  rw [quoted_append]
  simp [Source.value?, Source.skipSpace_cons, Source.isSpace]

theorem member_append (name value : String) (rest : List Char) :
    member name value ++ rest =
      '"' :: (name.toList.flatMap escaped ++ '"' :: ':' :: (quoted value ++ rest)) := by
  simp [member, quoted]

theorem members?_last (fuel depth : Nat) (name value : String) (rest : List Char) :
    Source.members? (fuel + 2) depth (member name value ++ '\x7d' :: rest) =
      some ([(some name, .string value)], rest) := by
  rw [member_append]
  simp [Source.members?, Source.skipSpace_cons, Source.isSpace]

theorem members?_more (fuel depth : Nat) (name value : String) (rest : List Char) :
    Source.members? (fuel + 2) depth (member name value ++ ',' :: rest) =
      (Source.members? (fuel + 1) depth rest).map fun (others, after) =>
        ((some name, .string value) :: others, after) := by
  rw [member_append, Source.members?]
  cases read : Source.members? (fuel + 1) depth rest <;>
    simp [Source.skipSpace_cons, Source.isSpace, read]

def laterMembers (fields : List (String × String)) : List Char :=
  fields.flatMap fun (name, value) => ',' :: member name value

def sourceMembers (fields : List (String × String)) : List (String × Source) :=
  fields.map fun (name, value) => (name, .string value)

theorem length_le_laterMembers (fields : List (String × String)) :
    fields.length ≤ (laterMembers fields).length := by
  induction fields with
  | nil => exact Nat.zero_le _
  | cons field rest inductionHypothesis =>
      rw [laterMembers, List.flatMap_cons, List.length_append, ← laterMembers, List.length_cons,
        List.length_cons]
      omega

/-- The members up to the closing brace, as long as the fuel suffices for all of them. -/
theorem members?_written {fuel : Nat} (depth : Nat) (name value : String)
    (fields : List (String × String)) (enough : fields.length + 1 < fuel) (rest : List Char) :
    Source.members? fuel depth (member name value ++ (laterMembers fields ++ '\x7d' :: rest)) =
      some ((sourceMembers ((name, value) :: fields)).map fun member =>
        (some member.1, member.2), rest) := by
  -- The member in front changes with every step, so that it is generalized with the fuel.
  induction fields generalizing fuel name value with
  | nil =>
      obtain ⟨more, rfl⟩ := Nat.exists_eq_add_of_le' enough
      exact members?_last more depth name value rest
  | cons field others inductionHypothesis =>
      obtain ⟨nextName, nextValue⟩ := field
      rw [List.length_cons] at enough
      obtain ⟨more, rfl⟩ : ∃ more, fuel = more + 2 := ⟨fuel - 2, by omega⟩
      have fewer : others.length + 1 < more + 1 := by omega
      have later := inductionHypothesis nextName nextValue fewer
      rw [laterMembers, List.flatMap_cons, List.append_assoc, List.cons_append, members?_more,
        ← laterMembers, later]
      rfl

theorem value?_written {fuel depth : Nat} (allowed : depth ≠ 0) (name value : String)
    (fields : List (String × String)) (enough : fields.length + 2 < fuel) :
    Source.value? fuel depth
        ('\x7b' :: (member name value ++ (laterMembers fields ++ ['\x7d']))) =
      some (.object (sourceMembers ((name, value) :: fields)), []) := by
  obtain ⟨more, rfl⟩ : ∃ more, fuel = more + 1 := ⟨fuel - 1, by omega⟩
  have written := members?_written (depth - 1) name value fields (Nat.lt_of_succ_lt_succ enough) []
  rw [member_append] at written ⊢
  simp [Source.value?, Source.skipSpace_cons, Source.isSpace, written, Source.atDepth, allowed]

def writtenFields (entry : JournalEntry) : List (String × String) :=
  ("event", entry.event) :: ("severity", entry.severity.name) :: entry.sortedFields

theorem toList_line (entry : JournalEntry) :
    entry.line.toList = '\x7b' :: (member "event" entry.event ++
      (laterMembers (("severity", entry.severity.name) :: entry.sortedFields) ++ ['\x7d'])) := by
  simp [line, laterMembers]

theorem sourceRead?_line (entry : JournalEntry) :
    Source.read? entry.line = some (.object (sourceMembers entry.writtenFields)) := by
  have enough := length_le_laterMembers (("severity", entry.severity.name) :: entry.sortedFields)
  have allowed : Source.maximumDepth ≠ 0 := by decide
  rw [Source.read?, Source.readWithin?, toList_line]
  rw [value?_written allowed]
  · rfl
  · simp only [List.length_cons, List.length_append] at enough ⊢
    omega

/-! Documents. -/

def jsonMembers (fields : List (String × String)) : List (String × Json) :=
  fields.map fun (name, value) => (name, .string value)

theorem toJson?_sourceMembers (fields : List (String × String)) :
    (Source.object (sourceMembers fields)).toJson? =
      some (Json.ofMembers (jsonMembers fields)) := by
  have members : Source.membersToJson? (sourceMembers fields) = some (jsonMembers fields) := by
    induction fields with
    | nil => rfl
    | cons field rest inductionHypothesis =>
        obtain ⟨name, value⟩ := field
        rw [sourceMembers] at inductionHypothesis ⊢
        simp [Source.membersToJson?, Source.toJson?, inductionHypothesis, jsonMembers]
  rw [Source.toJson?, members]
  rfl

theorem jsonRead?_line (entry : JournalEntry) :
    Json.read? entry.line = some (Json.ofMembers (jsonMembers entry.writtenFields)) := by
  rw [Json.read?, sourceRead?_line]
  exact toJson?_sourceMembers entry.writtenFields

/-! The order of the fields. -/

@[simp]
theorem perm_sortedFields (entry : JournalEntry) : entry.sortedFields.Perm entry.fields :=
  List.mergeSort_perm _ _

@[simp]
theorem ascending_sortedFields {entry : JournalEntry}
    (distinct : (Fields.names entry.fields).Nodup) : Fields.Ascending entry.sortedFields := by
  have different : (Fields.names entry.sortedFields).Nodup :=
    (entry.perm_sortedFields.map Prod.fst).nodup_iff.mpr distinct
  have byName : Std.TransCmp fun left right : String × String => compare left.1 right.1 :=
    Sorting.transCmp_on compare Prod.fst
  refine List.Pairwise.imp₂ ?_ (Sorting.pairwise_mergeSort (fun left right : String × String =>
    compare left.1 right.1) entry.fields) (List.pairwise_map.mp different)
  intro earlier later notAbove unequal
  cases order : compare earlier.1 later.1 with
  | lt => rfl
  | eq => exact absurd (Std.LawfulEqOrd.eq_of_compare order) unequal
  | gt => exact absurd order notAbove

theorem line_of_perm {entry : JournalEntry} (distinct : (Fields.names entry.fields).Nodup)
    {fields : List (String × String)} (perm : fields.Perm entry.fields) :
    ({ entry with fields := fields } : JournalEntry).line = entry.line := by
  generalize changed : ({ entry with fields := fields } : JournalEntry) = other
  have otherPerm : other.fields.Perm entry.fields := by
    rw [← changed]
    exact perm
  have otherDistinct : (Fields.names other.fields).Nodup :=
    (otherPerm.map Prod.fst).nodup_iff.mpr distinct
  have same : other.sortedFields = entry.sortedFields :=
    Fields.Ascending.eq_of_perm (ascending_sortedFields otherDistinct)
      (ascending_sortedFields distinct)
      (other.perm_sortedFields.trans (otherPerm.trans entry.perm_sortedFields.symm))
  rw [line, line, same, ← changed]

theorem nodup_writtenFields {entry : JournalEntry} (distinct : (Fields.names entry.fields).Nodup)
    (unreserved : ∀ field ∈ entry.fields, field.1 ≠ "event" ∧ field.1 ≠ "severity") :
    (Fields.names entry.writtenFields).Nodup := by
  have fresh {name : String} (other : ∀ field ∈ entry.fields, field.1 ≠ name) :
      name ∉ Fields.names entry.sortedFields := by
    intro member
    obtain ⟨field, present, rfl⟩ := List.mem_map.mp member
    exact other field (entry.perm_sortedFields.mem_iff.mp present) rfl
  refine List.nodup_cons.mpr ⟨?_, List.nodup_cons.mpr ⟨?_, ?_⟩⟩
  · intro member
    rcases List.mem_cons.mp member with same | later
    · have apart : "event" ≠ "severity" := by decide
      exact apart same
    · exact fresh (fun field present => (unreserved field present).1) later
  · exact fresh fun field present => (unreserved field present).2
  · exact (ascending_sortedFields distinct).nodup_names

/-! Faithfulness. -/

/-- A line is safe and faithful. It has no control characters, reading it gives back the event, the
severity and every field with its own text, in the order of the names, and it does not depend on the
order in which the fields were given. -/
theorem line_is_faithful {entry : JournalEntry} (distinct : (Fields.names entry.fields).Nodup)
    (unreserved : ∀ field ∈ entry.fields, field.1 ≠ "event" ∧ field.1 ≠ "severity") :
    (∀ character ∈ entry.line.toList, Text.isControl character = false) ∧
    (∃ sorted : Fields String, sorted.Ascending ∧ sorted.Perm entry.fields ∧
      Source.read? entry.line = some (.object (("event", .string entry.event) ::
        ("severity", .string entry.severity.name) ::
          sorted.map fun (name, text) => (name, .string text)))) ∧
    (∃ members, Json.read? entry.line = some (.object members) ∧
      ∀ name document, Fields.get? name members = some document ↔
        (name, document) ∈ ("event", .string entry.event) ::
          ("severity", .string entry.severity.name) ::
            entry.fields.map fun (name, text) => (name, .string text)) ∧
    Severity.read? entry.severity.name = some entry.severity ∧
    ∀ fields : List (String × String), fields.Perm entry.fields →
      ({ entry with fields := fields } : JournalEntry).line = entry.line := by
  refine ⟨entry.isControl_line, ?_, ?_, ?_, fun fields perm => line_of_perm distinct perm⟩
  · exact ⟨entry.sortedFields, ascending_sortedFields distinct, entry.perm_sortedFields,
      entry.sourceRead?_line⟩
  · refine ⟨_, entry.jsonRead?_line, ?_⟩
    intro name document
    have names : Fields.names (jsonMembers entry.writtenFields) =
        Fields.names entry.writtenFields := by
      simp [Fields.names, jsonMembers]
    have different := nodup_writtenFields distinct unreserved
    rw [← names] at different
    rw [Fields.get?_ofList_eq_some_iff different]
    exact (((entry.perm_sortedFields.map _).cons _).cons _).mem_iff
  · exact entry.severity.read?_name

/-- An entry that pretends to be several lines and to end its texts early. -/
def injected : JournalEntry where
  severity := .warn
  event := "LOGIN\n\x7b\"event\":\"LOGOUT\"\x7d"
  fields := [("user", "eve\",\"severity\":\"TRACE"), ("path\\", "\x7f\u0085\t\x00"),
    ("\r", "λ")]

theorem injected_is_faithful :
    (Fields.names injected.fields).Nodup ∧
    (∀ field ∈ injected.fields, field.1 ≠ "event" ∧ field.1 ≠ "severity") ∧
    (∀ character ∈ injected.line.toList, Text.isControl character = false) ∧
    ∃ members, Json.read? injected.line = some (.object members) ∧
      Fields.get? "user" members = some (.string "eve\",\"severity\":\"TRACE") ∧
      Fields.get? "severity" members = some (.string "WARN") := by
  have distinct : (Fields.names injected.fields).Nodup := by decide
  have unreserved : ∀ field ∈ injected.fields, field.1 ≠ "event" ∧ field.1 ≠ "severity" := by
    decide
  obtain ⟨controls, _, ⟨members, read, lookups⟩, _⟩ := line_is_faithful distinct unreserved
  refine ⟨distinct, unreserved, controls, members, read, ?_, ?_⟩
  · exact (lookups _ _).mpr (by simp [injected])
  · exact (lookups _ _).mpr (by simp [injected, Severity.name])

end JournalEntry

end EntityCursor
