import EntityCursor.Descriptor.Loading
import EntityCursor.Proofs.Json
import Mathlib.Data.List.Permutation

/-!
Descriptors read back from their documents. A field is one object with the members of its kind and
the members of its own. They have different names, so that each is found where it belongs, however
deep the kind nests and whether or not the flags are written. Main statement: every descriptor comes
back from its document, and every file with such a document gives its descriptors.
-/

namespace EntityCursor

namespace FieldKind

variable {kind : FieldKind} {members : List (String × Json)}

theorem ascending_members (kind : FieldKind) : Fields.Ascending kind.members := by
  have elementFirst : compare "element" "type" = .lt := by decide
  have entityFirst : compare "entity" "type" = .lt := by decide
  cases kind with
  | array element => exact List.pairwise_pair.mpr elementFirst
  | entity name => exact List.pairwise_pair.mpr entityFirst
  | _ => exact List.pairwise_singleton _ _

/-- An object holds the members of a kind, among others perhaps. -/
def IsWrittenIn (kind : FieldKind) (members : List (String × Json)) : Prop :=
  ∀ name document, (name, document) ∈ kind.members → Fields.get? name members = some document

theorem isWrittenIn_members (kind : FieldKind) : kind.IsWrittenIn kind.members :=
  fun _ _ member => Fields.get?_of_mem kind.ascending_members member

/-- A kind is read from any object that holds its members. -/
theorem ofMembers?_of_isWrittenIn (written : kind.IsWrittenIn members) :
    ofMembers? members = some kind := by
  -- The members of an element are an object of their own, and no longer among those of the field.
  induction kind generalizing members with
  | array element inductionHypothesis =>
      have tagged := written "type" (.string "array") (by simp [FieldKind.members])
      have part := written "element" (.object element.members) (by simp [FieldKind.members])
      have read : union.ofJson? true (.object element.members) = some element :=
        inductionHypothesis element.isWrittenIn_members
      refine (union.ofJson?_object tagged).trans ?_
      change ((Fields.get? "element" (union.memberParts members)).bind (·.2)).map array = _
      rw [union.get?_memberParts, part]
      simp [read]
  | entity name =>
      have tagged := written "type" (.string "entity") (by simp [FieldKind.members])
      have part := written "entity" (.string name) (by simp [FieldKind.members])
      refine (union.ofJson?_object tagged).trans ?_
      change ofParts? .entity (union.memberParts members) = _
      rw [ofParts?, union.get?_memberParts, part]
      rfl
  | _ => exact union.ofJson?_object (written "type" _ List.mem_cons_self)

@[simp]
theorem ofJson?_members (kind : FieldKind) : ofJson? (.object kind.members) = some kind :=
  ofMembers?_of_isWrittenIn kind.isWrittenIn_members

def keys : List String := ["element", "entity", "type"]

theorem names_members_subset (kind : FieldKind) : Fields.names kind.members ⊆ keys := by
  cases kind <;> simp [FieldKind.members, Fields.names, keys]

end FieldKind

namespace FieldDescriptor

/-- The names that fields have members of their own under. -/
def keys : List String := ["isOptional", "isUnique", "name"]

/-- The members of a field beside those of its kind. Either flag may be left out. -/
def ownMembers (name : String) (isOptional isUnique : Option Bool) : List (String × Json) :=
  (isOptional.map fun flag => ("isOptional", .bool flag)).toList ++
    (isUnique.map fun flag => ("isUnique", .bool flag)).toList ++ [("name", .string name)]

section Members

variable (kind : FieldKind) (name : String) (isOptional isUnique : Option Bool)

theorem names_ownMembers_sublist :
    (Fields.names (ownMembers name isOptional isUnique)).Sublist keys := by
  cases isOptional <;> cases isUnique <;> simp [Fields.names, ownMembers, keys]

theorem ascending_ownMembers : Fields.Ascending (ownMembers name isOptional isUnique) := by
  have ordered : keys.Pairwise fun left right => compare left right = .lt := by decide
  exact List.pairwise_map.mp (ordered.sublist (names_ownMembers_sublist name isOptional isUnique))

theorem not_mem_keys : ∀ key ∈ FieldKind.keys, key ∉ keys := by
  decide

theorem not_mem_keys_of_members {key : String} (ofKind : key ∈ Fields.names kind.members) :
    key ∉ keys :=
  not_mem_keys key (kind.names_members_subset ofKind)

theorem not_mem_keys_of_ownMembers {key : String}
    (ofField : key ∈ Fields.names (ownMembers name isOptional isUnique)) : key ∉ FieldKind.keys :=
  fun ofKind => not_mem_keys key ofKind
    ((names_ownMembers_sublist name isOptional isUnique).subset ofField)

/-- What is found in the object of a field under some name is what its kind or the field itself
writes under it. -/
theorem get?_members (key : String) (document : Json) :
    Fields.get? key (Fields.ofList (kind.members ++ ownMembers name isOptional isUnique)) =
        some document ↔
      (key, document) ∈ kind.members ∨ (key, document) ∈ ownMembers name isOptional isUnique := by
  have ownSorted := ascending_ownMembers name isOptional isUnique
  have distinct : (Fields.names (kind.members ++ ownMembers name isOptional isUnique)).Nodup := by
    rw [Fields.names, List.map_append]
    refine List.nodup_append.mpr
      ⟨kind.ascending_members.nodup_names, ownSorted.nodup_names, ?_⟩
    rintro key ofKind _ ofField rfl
    exact not_mem_keys_of_ownMembers name isOptional isUnique ofField
      (kind.names_members_subset ofKind)
  rw [Fields.get?_ofList_eq_some_iff distinct]
  exact List.mem_append

theorem get?_own {key : String} (own : key ∈ keys) :
    Fields.get? key (Fields.ofList (kind.members ++ ownMembers name isOptional isUnique)) =
      Fields.get? key (ownMembers name isOptional isUnique) := by
  apply Option.ext
  intro document
  rw [get?_members]
  constructor
  · rintro (ofKind | ofField)
    · exact absurd own (not_mem_keys_of_members kind (List.mem_map_of_mem ofKind))
    · exact Fields.get?_of_mem (ascending_ownMembers name isOptional isUnique) ofField
  · intro found
    exact .inr (Fields.mem_of_get? found)

theorem flag?_of_get? {key : String} {flag : Option Bool} {members : List (String × Json)}
    (found : Fields.get? key members = flag.map .bool) :
    flag? key members = some (flag.getD false) := by
  rw [flag?, found]
  cases flag <;> rfl

/-- A field is read back, and a flag that is left out is read as false. -/
theorem ofJson?_ofMembers :
    ofJson? (.ofMembers (kind.members ++ ownMembers name isOptional isUnique)) =
      some ⟨name, kind, isOptional.getD false, isUnique.getD false⟩ := by
  have ofKind := FieldKind.ofMembers?_of_isWrittenIn fun key document member =>
    (get?_members kind name isOptional isUnique key document).mpr (.inl member)
  have ofName : Fields.get? "name" (ownMembers name isOptional isUnique) = some (.string name) := by
    cases isOptional <;> cases isUnique <;> rfl
  have ofOptional : Fields.get? "isOptional" (ownMembers name isOptional isUnique) =
      isOptional.map .bool := by
    cases isOptional <;> cases isUnique <;> rfl
  have ofUnique : Fields.get? "isUnique" (ownMembers name isOptional isUnique) =
      isUnique.map .bool := by
    cases isOptional <;> cases isUnique <;> rfl
  have own {key : String} := @get?_own kind name isOptional isUnique key
  rw [← own (by decide)] at ofName ofOptional ofUnique
  simp [Json.ofMembers, ofJson?, ofName, ofKind, flag?_of_get? ofOptional, flag?_of_get? ofUnique]

end Members

@[simp]
theorem ofJson?_toJson (field : FieldDescriptor) : ofJson? field.toJson = some field :=
  ofJson?_ofMembers field.kind field.name (some field.isOptional) (some field.isUnique)

end FieldDescriptor

namespace EntityDescriptor

@[simp]
theorem ofJson?_toJson (descriptor : EntityDescriptor) :
    ofJson? descriptor.toJson = some descriptor := by
  have fields : (descriptor.fields.map FieldDescriptor.toJson).mapM FieldDescriptor.ofJson? =
      some descriptor.fields := by
    induction descriptor.fields with
    | nil => rfl
    | cons field rest inductionHypothesis =>
        simp [inductionHypothesis]
  simp [toJson, ofJson?, Fields.get?, ofParts?, fields]

@[simp]
theorem listOfJson?_toJson (descriptors : List EntityDescriptor) :
    listOfJson? (.array (descriptors.map toJson)) = some descriptors := by
  rw [listOfJson?]
  induction descriptors with
  | nil => rfl
  | cons descriptor rest inductionHypothesis =>
      simp [inductionHypothesis]

theorem descriptorsOfFile_toJson {file : Option File} {text : String} {descriptor : EntityDescriptor}
    (content : File.text? file = some text) (denotes : Json.read? text = some descriptor.toJson) :
    Registry.descriptorsOfFile file = .ok [descriptor] := by
  have one : listOfJson? descriptor.toJson = some [descriptor] := by
    have read := ofJson?_toJson descriptor
    rw [toJson] at read ⊢
    rw [listOfJson?, read]
    · rfl
    · exact fun _ isArray => Json.noConfusion isArray
  simp [Registry.descriptorsOfFile, content, denotes, one]

/-- Descriptors come back from their documents: one by itself, several in a list, and kinds however
deep they nest. In the object of a field its kind and the field itself have no name in common, so
that under every name stands what one of them wrote there, and flags that are left out are read as
false. A file is read by its document alone, which its text denotes; a text denotes no document that is
nested deeper than `Source.maximumDepth`. -/
theorem reads_back (descriptor : EntityDescriptor) :
    ofJson? descriptor.toJson = some descriptor ∧
    (∀ descriptors, listOfJson? (.array (descriptors.map toJson)) = some descriptors) ∧
    (∀ kind : FieldKind, FieldKind.ofJson? (.object kind.members) = some kind) ∧
    (∀ kind name isOptional isUnique,
      FieldDescriptor.ofJson?
          (.ofMembers (kind.members ++ FieldDescriptor.ownMembers name isOptional isUnique)) =
        some ⟨name, kind, isOptional.getD false, isUnique.getD false⟩) ∧
    (∀ field : FieldDescriptor, ∃ members, field.toJson = .object members ∧
      ∀ key document, Fields.get? key members = some document ↔
        (key, document) ∈ field.kind.members ∧ key ∉ FieldDescriptor.keys ∨
        (key, document) ∈ FieldDescriptor.ownMembers field.name (some field.isOptional)
          (some field.isUnique) ∧ key ∉ FieldKind.keys) ∧
    ∀ file text, File.text? file = some text → Json.read? text = some descriptor.toJson →
      Registry.descriptorsOfFile file = .ok [descriptor] := by
  refine ⟨descriptor.ofJson?_toJson, listOfJson?_toJson, FieldKind.ofJson?_members,
    FieldDescriptor.ofJson?_ofMembers, fun field => ⟨_, rfl, fun key document => ?_⟩,
    fun _ _ => descriptorsOfFile_toJson⟩
  have found := FieldDescriptor.get?_members field.kind field.name (some field.isOptional)
    (some field.isUnique) key document
  refine found.trans (or_congr (iff_self_and.mpr fun ofKind => ?_)
    (iff_self_and.mpr fun ofField => ?_))
  · exact FieldDescriptor.not_mem_keys_of_members field.kind (List.mem_map_of_mem ofKind)
  · exact FieldDescriptor.not_mem_keys_of_ownMembers _ _ _ (List.mem_map_of_mem ofField)

def tour : EntityDescriptor := ⟨"Tour", [{ name := "stops", kind := .array (.array .date) }]⟩

def tourText : String :=
  "\x7b\"name\":\"Tour\",\"fields\":[\x7b\"name\":\"stops\",\"isOptional\":false,\"isUnique\":false," ++
    "\"type\":\"array\",\"element\":\x7b\"type\":\"array\",\"element\":\x7b\"type\":\"date\"\x7d\x7d\x7d]\x7d"

set_option maxRecDepth 2000 in
theorem tour_reads_back :
    Json.read? tourText = some tour.toJson ∧
      Registry.descriptorsOfFile (some (.ofText tourText)) = .ok [tour] := by
  have denotes : Json.read? tourText = some tour.toJson := by
    cbv
  obtain ⟨_, _, _, _, _, files⟩ := tour.reads_back
  exact ⟨denotes, files _ _ (File.text?_ofText tourText) denotes⟩

end EntityDescriptor

end EntityCursor
