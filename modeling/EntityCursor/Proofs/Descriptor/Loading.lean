import EntityCursor.Descriptor.Loading
import EntityCursor.Proofs.Descriptor.Registration

/-!
Filing descriptors, one by one, from a file or from the files of a directory. Every call offers its
descriptors in an order and files them up to the first one that is refused; a file that cannot be
read offers an error in their place. Main statement: after any calls the registry holds faultless
descriptors under their own names, no later call replaces or removes one, and a call that fails has
filed exactly what was offered before the refusal.
-/

namespace EntityCursor

namespace Registry

variable {before middle after registry : Registry} {descriptor : EntityDescriptor}
  {stored others : List EntityDescriptor}

/-! What registries gain. -/

/-- The descriptors of one registry and some more, which are faultless and have new names. -/
structure Gains (before after : Registry) (stored : List EntityDescriptor) : Prop where
  faultless : ∀ descriptor ∈ stored, descriptor.fault? = none
  fresh : ∀ descriptor ∈ stored, before.get? descriptor.name = none
  distinct : (stored.map (·.name)).Nodup
  get?_eq_some_iff : ∀ name descriptor, after.get? name = some descriptor ↔
    before.get? name = some descriptor ∨ descriptor ∈ stored ∧ descriptor.name = name

theorem Gains.refl (registry : Registry) : registry.Gains registry [] :=
  ⟨by simp, by simp, List.nodup_nil, by simp⟩

theorem Gains.get?_of_get? {name : String} (gains : before.Gains after stored)
    (registered : before.get? name = some descriptor) : after.get? name = some descriptor :=
  (gains.get?_eq_some_iff name descriptor).mpr (.inl registered)

theorem Gains.get?_of_mem (gains : before.Gains after stored) (member : descriptor ∈ stored) :
    after.get? descriptor.name = some descriptor :=
  (gains.get?_eq_some_iff descriptor.name descriptor).mpr (.inr ⟨member, rfl⟩)

theorem Gains.trans (first : before.Gains middle stored) (second : middle.Gains after others) :
    before.Gains after (stored ++ others) := by
  constructor
  · intro descriptor member
    rcases List.mem_append.mp member with earlier | later
    · exact first.faultless descriptor earlier
    · exact second.faultless descriptor later
  · intro descriptor member
    rcases List.mem_append.mp member with earlier | later
    · exact first.fresh descriptor earlier
    · apply Option.eq_none_iff_forall_ne_some.mpr
      intro known registered
      have still := first.get?_of_get? registered
      rw [second.fresh descriptor later] at still
      cases still
  · rw [List.map_append]
    refine List.nodup_append.mpr ⟨first.distinct, second.distinct, ?_⟩
    rintro _ earlier _ later same
    obtain ⟨left, leftMember, rfl⟩ := List.mem_map.mp earlier
    obtain ⟨right, rightMember, rfl⟩ := List.mem_map.mp later
    have known := first.get?_of_mem leftMember
    rw [same, second.fresh right rightMember] at known
    cases known
  · intro name descriptor
    rw [second.get?_eq_some_iff, first.get?_eq_some_iff, List.mem_append, or_assoc, or_and_right]

/-- A new name under which a faultless descriptor is filed. -/
theorem gains_set (faultless : descriptor.fault? = none)
    (fresh : registry.get? descriptor.name = none) :
    registry.Gains ⟨Fields.set descriptor.name descriptor registry.descriptors⟩ [descriptor] := by
  constructor
  · simpa using faultless
  · simpa using fresh
  · simp
  · intro name other
    rw [get?, Fields.get?_set, List.mem_singleton]
    by_cases same : name = descriptor.name
    · subst same
      rw [if_pos rfl, fresh]
      constructor
      · rintro ⟨⟩
        exact .inr ⟨rfl, rfl⟩
      · rintro (⟨⟨⟩⟩ | ⟨rfl, _⟩)
        rfl
    · rw [if_neg same]
      constructor
      · exact .inl
      · rintro (registered | ⟨rfl, named⟩)
        · exact registered
        · exact absurd named.symm same

/-! What is offered. -/

/-- A descriptor, or the file that cannot be read and why. -/
abbrev Offer := Except (String × FileFault) EntityDescriptor

/-- An offer is refused: there is nothing to register, the descriptor has a fault, or its name is
taken. -/
inductive Refuses (registry : Registry) : Offer → DescriptorError → Prop where
  | malformed (path : String) (fault : FileFault) :
      Refuses registry (.error (path, fault)) (.malformed path fault)
  | invalid {descriptor : EntityDescriptor} {fault : StructureFault} :
      descriptor.fault? = some fault → Refuses registry (.ok descriptor) (.invalid fault)
  | duplicate {descriptor : EntityDescriptor} :
      descriptor.fault? = none → registry.contains descriptor.name = true →
      Refuses registry (.ok descriptor) (.duplicate descriptor.name)

/-- How filing offers ends: either all of them are stored, or those in front of one that is refused.
-/
inductive Files (before : Registry) : List Offer → Except DescriptorError Unit × Registry → Prop where
  | all (stored : List EntityDescriptor) {after : Registry} :
      before.Gains after stored → Files before (stored.map .ok) (.ok (), after)
  | stopped (stored : List EntityDescriptor) {offending : Offer} {rest : List Offer}
      {failure : DescriptorError} {after : Registry} :
      before.Gains after stored → after.Refuses offending failure →
      Files before (stored.map .ok ++ offending :: rest) (.error failure, after)

variable {offers more : List Offer} {result : Except DescriptorError Unit × Registry}

theorem Files.append (first : before.Files offers (.ok (), middle))
    (second : middle.Files more result) : before.Files (offers ++ more) result := by
  cases first with
  | all stored gains =>
      cases second with
      | all storedMore gainsMore =>
          rw [← List.map_append]
          exact .all _ (gains.trans gainsMore)
      | stopped storedMore gainsMore refuses =>
          rw [← List.append_assoc, ← List.map_append]
          exact .stopped _ (gains.trans gainsMore) refuses

theorem Files.append_of_error {failure : DescriptorError}
    (first : before.Files offers (.error failure, after)) (more : List Offer) :
    before.Files (offers ++ more) (.error failure, after) := by
  cases first with
  | stopped stored gains refuses =>
      rw [List.append_assoc, List.cons_append]
      exact .stopped stored gains refuses

theorem Files.get?_of_get? {name : String} (files : before.Files offers result)
    (registered : before.get? name = some descriptor) : result.2.get? name = some descriptor := by
  cases files with
  | all _ gains => exact gains.get?_of_get? registered
  | stopped _ gains _ => exact gains.get?_of_get? registered

theorem files_of_register_ok (success : registry.register descriptor = .ok after) :
    registry.Files [.ok descriptor] (.ok (), after) := by
  rw [register] at success
  split at success
  · cases success
  · next faultless =>
      split at success
      · cases success
      · next fresh =>
          cases success
          exact .all [descriptor]
            (gains_set faultless (Option.not_isSome_iff_eq_none.mp fresh))

theorem files_of_register_error {failure : DescriptorError}
    (refused : registry.register descriptor = .error failure) :
    registry.Files [.ok descriptor] (.error failure, registry) := by
  refine .stopped [] (.refl registry) ?_
  rw [register] at refused
  split at refused
  · next faulty =>
      cases refused
      exact .invalid faulty
  · next faultless =>
      split at refused
      · next taken =>
          cases refused
          exact .duplicate faultless taken
      · cases refused

theorem files_registerAll (registry : Registry) (descriptors : List EntityDescriptor) :
    registry.Files (descriptors.map .ok) (registry.registerAll descriptors) := by
  induction descriptors generalizing registry with
  | nil => exact .all [] (.refl registry)
  | cons descriptor rest inductionHypothesis =>
      rw [registerAll]
      cases registered : registry.register descriptor with
      | ok longer =>
          exact (files_of_register_ok registered).append (inductionHypothesis longer)
      | error failure => exact (files_of_register_error registered).append_of_error _

/-! Files. -/

/-- What a file offers: the descriptors in the document of its text, or nothing but the reason why
there are none. -/
inductive OffersOfFile (path : String) (file : Option File) : List Offer → Prop where
  | unreadable : File.text? file = none → OffersOfFile path file [.error (path, .unreadable)]
  | notJson {text : String} : File.text? file = some text → Json.read? text = none →
      OffersOfFile path file [.error (path, .notJson)]
  | noDescriptors {text : String} {document : Json} :
      File.text? file = some text → Json.read? text = some document →
      EntityDescriptor.listOfJson? document = none →
      OffersOfFile path file [.error (path, .noDescriptors)]
  | descriptors {text : String} {document : Json} {descriptors : List EntityDescriptor} :
      File.text? file = some text → Json.read? text = some document →
      EntityDescriptor.listOfJson? document = some descriptors →
      OffersOfFile path file (descriptors.map .ok)

/-- What the files of a directory offer, one file after another. -/
inductive OffersOfFiles (directory : String) : List (String × File) → List Offer → Prop where
  | nil : OffersOfFiles directory [] []
  | cons {name : String} {file : File} {rest : List (String × File)} {offers more : List Offer} :
      OffersOfFile (File.join directory name) (some file) offers →
      OffersOfFiles directory rest more →
      OffersOfFiles directory ((name, file) :: rest) (offers ++ more)

theorem exists_offersOfFile (registry : Registry) (path : String) (file : Option File) :
    ∃ offers, OffersOfFile path file offers ∧
      registry.Files offers (registry.loadFile path file) := by
  have malformed (fault : FileFault) : registry.Files [.error (path, fault)]
      (.error (.malformed path fault), registry) :=
    .stopped [] (.refl registry) (.malformed path fault)
  rw [loadFile, descriptorsOfFile]
  cases content : File.text? file with
  | none => exact ⟨_, .unreadable content, malformed .unreadable⟩
  | some text =>
      cases denotes : Json.read? text with
      | none =>
          simp only [denotes]
          exact ⟨_, .notJson content denotes, malformed .notJson⟩
      | some document =>
          cases described : EntityDescriptor.listOfJson? document with
          | none =>
              simp only [denotes, described]
              exact ⟨_, .noDescriptors content denotes described, malformed .noDescriptors⟩
          | some descriptors =>
              simp only [denotes, described]
              exact ⟨_, .descriptors content denotes described,
                registry.files_registerAll descriptors⟩

theorem exists_offersOfFiles (registry : Registry) (directory : String)
    (files : List (String × File)) :
    ∃ offers, OffersOfFiles directory files offers ∧
      registry.Files offers (registry.loadFiles directory files) := by
  induction files generalizing registry with
  | nil => exact ⟨[], .nil, .all [] (.refl registry)⟩
  | cons entry rest inductionHypothesis =>
      obtain ⟨name, file⟩ := entry
      obtain ⟨offers, offered, filed⟩ :=
        registry.exists_offersOfFile (File.join directory name) (some file)
      rw [loadFiles]
      rcases loaded : registry.loadFile (File.join directory name) (some file) with
        ⟨failure | ⟨⟩, longer⟩
      · -- The files behind one that fails offer something, but nobody reads them.
        obtain ⟨more, offeredMore, _⟩ := inductionHypothesis longer
        rw [loaded] at filed
        exact ⟨offers ++ more, .cons offered offeredMore, filed.append_of_error more⟩
      · obtain ⟨more, offeredMore, filedMore⟩ := inductionHypothesis longer
        rw [loaded] at filed
        exact ⟨offers ++ more, .cons offered offeredMore, filed.append filedMore⟩

/-! Whatever happens, what a registry holds has been accepted. -/

theorem Accepted.registerAll (accepted : registry.Accepted) (descriptors : List EntityDescriptor) :
    (registry.registerAll descriptors).2.Accepted := by
  induction descriptors generalizing registry with
  | nil => exact accepted
  | cons descriptor rest inductionHypothesis =>
      rw [Registry.registerAll]
      cases registered : registry.register descriptor with
      | ok longer => exact inductionHypothesis (accepted.register registered)
      | error failure => exact accepted

theorem Accepted.loadFile (accepted : registry.Accepted) (path : String) (file : Option File) :
    (registry.loadFile path file).2.Accepted := by
  rw [Registry.loadFile]
  cases descriptorsOfFile file with
  | error fault => exact accepted
  | ok descriptors => exact accepted.registerAll descriptors

theorem Accepted.loadFiles (accepted : registry.Accepted) (directory : String)
    (files : List (String × File)) : (registry.loadFiles directory files).2.Accepted := by
  induction files generalizing registry with
  | nil => exact accepted
  | cons entry rest inductionHypothesis =>
      obtain ⟨name, file⟩ := entry
      have first := accepted.loadFile (File.join directory name) (some file)
      rw [Registry.loadFiles]
      rcases loaded : registry.loadFile (File.join directory name) (some file) with
        ⟨failure | ⟨⟩, longer⟩
      · rwa [loaded] at first
      · rw [loaded] at first
        exact inductionHypothesis first

/-- The files of a directory whose names end in `.json`, in the order of their names. -/
structure ListsJson (entries files : List (String × File)) : Prop where
  ascending : Fields.Ascending files
  listed : ∀ entry ∈ files, entry ∈ entries ∧ File.isJsonName entry.1 = true
  complete : ∀ entry ∈ entries, File.isJsonName entry.1 = true → entry.1 ∈ Fields.names files

@[simp]
theorem listsJson_ofList (entries : List (String × File)) :
    ListsJson entries (Fields.ofList (entries.filter fun entry => File.isJsonName entry.1)) := by
  have ascending := Fields.ascending_ofList (entries.filter fun entry => File.isJsonName entry.1)
  refine ⟨ascending, fun entry member => ?_, fun entry member isJson => ?_⟩
  · have found := Fields.get?_of_mem ascending member
    rw [Fields.get?_ofList] at found
    exact List.mem_filter.mp (List.mem_reverse.mp (Fields.mem_of_get? found))
  · have filtered : entry ∈ entries.filter fun entry => File.isJsonName entry.1 :=
      List.mem_filter.mpr ⟨member, isJson⟩
    rw [← Fields.get?_isSome_iff_mem_names, Fields.get?_ofList, Fields.get?_isSome_iff_mem_names]
    exact List.mem_map_of_mem (List.mem_reverse.mpr filtered)

end Registry

/-! Calls. -/

inductive Filing where
  | register (descriptor : EntityDescriptor)
  | loadFile (path : String) (file : Option File)
  | loadDirectory (path : String) (directory : Option File)

namespace Filing

def perform (registry : Registry) : Filing → Except DescriptorError Unit × Registry
  | .register descriptor =>
      match registry.register descriptor with
      | .ok longer => (.ok (), longer)
      | .error failure => (.error failure, registry)
  | .loadFile path file => registry.loadFile path file
  | .loadDirectory path directory => registry.loadDirectory path directory

def performAll (registry : Registry) (calls : List Filing) : Registry :=
  calls.foldl (fun registry call => (call.perform registry).2) registry

inductive Offers : Filing → List Registry.Offer → Prop where
  | register (descriptor : EntityDescriptor) : Offers (.register descriptor) [.ok descriptor]
  | loadFile {path : String} {file : Option File} {offers : List Registry.Offer} :
      Registry.OffersOfFile path file offers → Offers (.loadFile path file) offers
  | unreadable (path : String) {directory : Option File} :
      File.entries? directory = none →
      Offers (.loadDirectory path directory) [.error (path, .unreadable)]
  | loadDirectory {path : String} {directory : Option File}
      {entries files : List (String × File)} {offers : List Registry.Offer} :
      File.entries? directory = some entries → Registry.ListsJson entries files →
      Registry.OffersOfFiles path files offers → Offers (.loadDirectory path directory) offers

theorem exists_offers (registry : Registry) (call : Filing) :
    ∃ offers, call.Offers offers ∧ registry.Files offers (call.perform registry) := by
  cases call with
  | register descriptor =>
      refine ⟨_, .register descriptor, ?_⟩
      rw [perform]
      cases registered : registry.register descriptor with
      | ok longer => exact Registry.files_of_register_ok registered
      | error failure => exact Registry.files_of_register_error registered
  | loadFile path file =>
      obtain ⟨offers, offered, filed⟩ := registry.exists_offersOfFile path file
      exact ⟨offers, .loadFile offered, filed⟩
  | loadDirectory path directory =>
      rw [perform, Registry.loadDirectory]
      cases found : File.entries? directory with
      | none =>
          exact ⟨_, .unreadable path found,
            .stopped [] (.refl registry) (.malformed path .unreadable)⟩
      | some entries =>
          obtain ⟨offers, offered, filed⟩ := registry.exists_offersOfFiles path
            (Fields.ofList (entries.filter fun entry => File.isJsonName entry.1))
          exact ⟨offers, .loadDirectory found (Registry.listsJson_ofList entries) offered, filed⟩

theorem accepted_perform {registry : Registry} (accepted : registry.Accepted) (call : Filing) :
    (call.perform registry).2.Accepted := by
  cases call with
  | register descriptor =>
      rw [perform]
      cases registered : registry.register descriptor with
      | ok longer => exact accepted.register registered
      | error failure => exact accepted
  | loadFile path file => exact accepted.loadFile path file
  | loadDirectory path directory =>
      rw [perform, Registry.loadDirectory]
      cases File.entries? directory with
      | none => exact accepted
      | some entries => exact accepted.loadFiles path _

theorem accepted_performAll {registry : Registry} (accepted : registry.Accepted)
    (calls : List Filing) : (performAll registry calls).Accepted := by
  induction calls generalizing registry with
  | nil => exact accepted
  | cons call rest inductionHypothesis => exact inductionHypothesis (accepted_perform accepted call)

theorem get?_performAll {registry : Registry} {name : String} {descriptor : EntityDescriptor}
    (registered : registry.get? name = some descriptor) (calls : List Filing) :
    (performAll registry calls).get? name = some descriptor := by
  induction calls generalizing registry with
  | nil => exact registered
  | cons call rest inductionHypothesis =>
      obtain ⟨offers, _, files⟩ := exists_offers registry call
      exact inductionHypothesis (files.get?_of_get? registered)

/-- After any calls every descriptor is filed under its own name and has no fault, later calls leave
it in its place, registering in vain changes nothing, and every call files what it offers in order,
up to the first offer that is refused. -/
theorem keeps_what_is_filed (calls : List Filing) :
    (∀ name descriptor, (name, descriptor) ∈ (performAll .empty calls).descriptors →
      descriptor.name = name ∧ name ≠ "" ∧ (∀ field ∈ descriptor.fields, field.name ≠ "") ∧
        (descriptor.fields.map (·.name)).Nodup) ∧
    (∀ later name descriptor, (performAll .empty calls).get? name = some descriptor →
      (performAll .empty (calls ++ later)).get? name = some descriptor) ∧
    (∀ descriptor failure after,
      (register descriptor).perform (performAll .empty calls) = (.error failure, after) →
        after = performAll .empty calls) ∧
    ∀ call : Filing, ∃ offers, call.Offers offers ∧
      (performAll .empty calls).Files offers (call.perform (performAll .empty calls)) := by
  have accepted := accepted_performAll .empty calls
  refine ⟨?_, ?_, ?_, exists_offers _⟩
  · intro name descriptor filed
    obtain ⟨named, faultless⟩ := accepted.faultless (accepted.get?_of_mem filed)
    obtain ⟨present, fieldNames, distinct⟩ := EntityDescriptor.fault?_eq_none_iff.mp faultless
    exact ⟨named, named ▸ present, fieldNames, distinct⟩
  · intro later name descriptor registered
    rw [performAll, List.foldl_append]
    exact get?_performAll registered later
  · intro descriptor failure after refused
    rw [perform] at refused
    cases registered : (performAll .empty calls).register descriptor with
    | ok longer =>
        rw [registered] at refused
        cases refused
    | error failure =>
        rw [registered] at refused
        cases refused
        rfl

def place : EntityDescriptor := ⟨"Place", [{ name := "city", kind := .string }]⟩

def note : EntityDescriptor := ⟨"Note", []⟩

def placeAndNote : String :=
  "[\x7b\"name\":\"Place\",\"fields\":[\x7b\"name\":\"city\",\"type\":\"string\"\x7d]\x7d," ++
    "\x7b\"name\":\"Note\",\"fields\":[]\x7d]"

def late : String := "[\x7b\"name\":\"Late\",\"fields\":[]\x7d]"

/-- Three files of descriptors, of which the second one is cut off. -/
def shelf : File :=
  .directory [("c.json", .ofText late), ("b.json", .ofText "[\x7b"), ("b.txt", .ofText ""),
    ("a.json", .ofText placeAndNote)]

theorem perform_shelf :
    (loadDirectory "shelf" (some shelf)).perform .empty =
      (.error (.malformed "shelf/b.json" .notJson), ⟨[("Note", note), ("Place", place)]⟩) := by
  have described : (Json.read? placeAndNote).bind EntityDescriptor.listOfJson? =
      some [place, note] := by
    decide +kernel
  obtain ⟨document, denotes, described⟩ := Option.bind_eq_some_iff.mp described
  have whole : Registry.descriptorsOfFile (some (.ofText placeAndNote)) = .ok [place, note] := by
    simp only [Registry.descriptorsOfFile, File.text?_ofText, denotes, described]
  have noText : Json.read? "[\x7b" = none := rfl
  have cutOff : Registry.descriptorsOfFile (some (.ofText "[\x7b")) = .error .notJson := by
    simp only [Registry.descriptorsOfFile, File.text?_ofText, noText]
  have listed : Fields.ofList ([("c.json", File.ofText late), ("b.json", .ofText "[\x7b"),
        ("b.txt", .ofText ""), ("a.json", .ofText placeAndNote)].filter fun entry =>
          File.isJsonName entry.1) =
      [("a.json", .ofText placeAndNote), ("b.json", .ofText "[\x7b"), ("c.json", .ofText late)] :=
    rfl
  have stored : Registry.empty.registerAll [place, note] =
      (.ok (), ⟨[("Note", note), ("Place", place)]⟩) := rfl
  have path : File.join "shelf" "b.json" = "shelf/b.json" := by decide +kernel
  simp only [perform, Registry.loadDirectory, File.entries?, shelf, listed, Registry.loadFiles,
    Registry.loadFile, whole, stored, cutOff, path]

/-- What the first file offers is filed, nothing of the second one is, and the third one is not
opened. -/
theorem shelf_filed_in_part :
    (loadDirectory "shelf" (some shelf)).perform .empty =
      (.error (.malformed "shelf/b.json" .notJson), ⟨[("Note", note), ("Place", place)]⟩) ∧
    ∃ (stored : List EntityDescriptor) (rest : List Registry.Offer),
      (loadDirectory "shelf" (some shelf)).Offers
        (stored.map .ok ++ .error ("shelf/b.json", .notJson) :: rest) ∧
      ∀ descriptor, descriptor ∈ stored ↔ descriptor = note ∨ descriptor = place := by
  obtain ⟨_, _, _, calls⟩ := keeps_what_is_filed []
  obtain ⟨offers, offered, filed⟩ := calls (loadDirectory "shelf" (some shelf))
  change Registry.empty.Files offers ((loadDirectory "shelf" (some shelf)).perform .empty) at filed
  rw [perform_shelf] at filed
  refine ⟨perform_shelf, ?_⟩
  cases filed with
  | @stopped stored _ rest _ _ gains refuses =>
      cases refuses
      refine ⟨stored, rest, offered, fun descriptor => ?_⟩
      constructor
      · intro member
        have found := Fields.mem_of_get? (gains.get?_of_mem member)
        simp only [List.mem_cons, Prod.mk.injEq, List.not_mem_nil, or_false] at found
        exact found.imp And.right And.right
      · rintro (rfl | rfl)
        · obtain known | ⟨member, _⟩ := (gains.get?_eq_some_iff "Note" note).mp rfl
          · cases known
          · exact member
        · obtain known | ⟨member, _⟩ := (gains.get?_eq_some_iff "Place" place).mp rfl
          · cases known
          · exact member

end Filing

end EntityCursor
