import EntityCursor.Fields

/-!
Maps are determined by their entries: two maps in ascending order are equal if looking up any name
gives the same in both. What the operations on maps do is therefore said by what looking up gives
after them.
-/

namespace EntityCursor

namespace Fields

universe u

variable {Entry : Type u} {name other : String} {fields rest : Fields Entry}

@[simp]
theorem get?_cons_self (name : String) (entry : Entry) (rest : Fields Entry) :
    get? name ((name, entry) :: rest) = some entry := by
  simp [get?]

@[simp]
theorem get?_cons_of_ne (different : other ≠ name) (entry : Entry) (rest : Fields Entry) :
    get? name ((other, entry) :: rest) = get? name rest := by
  simp [get?, different]

@[simp]
theorem get?_isSome_iff_mem_names : (get? name fields).isSome ↔ name ∈ names fields := by
  induction fields with
  | nil => simp [names]
  | cons pair rest inductionHypothesis =>
      obtain ⟨key, entry⟩ := pair
      by_cases same : key = name
      · simp [get?, names, same]
      · rw [get?_cons_of_ne same, inductionHypothesis]
        simp [names, Ne.symm same]

@[simp]
theorem get?_eq_none_iff_not_mem_names : get? name fields = none ↔ name ∉ names fields := by
  rw [← get?_isSome_iff_mem_names]
  cases get? name fields <;> simp

theorem mem_of_get? {entry : Entry} (found : get? name fields = some entry) :
    (name, entry) ∈ fields := by
  induction fields with
  | nil => cases found
  | cons pair rest inductionHypothesis =>
      obtain ⟨key, first⟩ := pair
      rw [get?] at found
      split at found
      · next same =>
          cases found
          rw [same]
          exact List.mem_cons_self
      · exact List.mem_cons_of_mem _ (inductionHypothesis found)

theorem get?_eq_none_of_ascending_cons {entry : Entry}
    (ascending : Ascending ((name, entry) :: rest)) : get? name rest = none := by
  rw [get?_eq_none_iff_not_mem_names]
  intro member
  obtain ⟨⟨key, old⟩, later, same⟩ := List.mem_map.mp member
  have below := (List.pairwise_cons.mp ascending).1 (key, old) later
  simp only at same below
  simp [same] at below

theorem get?_eq_none_of_lt_first {entry : Entry}
    (ascending : Ascending ((other, entry) :: rest)) (below : compare name other = .lt) :
    get? name ((other, entry) :: rest) = none := by
  rw [get?_eq_none_iff_not_mem_names]
  intro member
  obtain ⟨⟨key, old⟩, present, same⟩ := List.mem_map.mp member
  simp only at same
  subst same
  rcases List.mem_cons.mp present with first | later
  · cases first
    simp at below
  · have above := (List.pairwise_cons.mp ascending).1 (key, old) later
    have cycle := Std.TransCmp.lt_trans below above
    simp at cycle

theorem get?_of_mem {entry : Entry} (ascending : Ascending fields)
    (member : (name, entry) ∈ fields) : get? name fields = some entry := by
  induction fields with
  | nil => cases member
  | cons pair rest inductionHypothesis =>
      obtain ⟨key, first⟩ := pair
      obtain ⟨above, restAscending⟩ := List.pairwise_cons.mp ascending
      rcases List.mem_cons.mp member with same | later
      · cases same
        exact get?_cons_self name entry rest
      · have below := above (name, entry) later
        have different : key ≠ name := by
          rintro rfl
          simp at below
        rw [get?_cons_of_ne different]
        exact inductionHypothesis restAscending later

/-- Two ascending maps in which looking up gives related entries have related entries in order. -/
theorem relatedInduction {related : Entry → Entry → Prop}
    {motive : Fields Entry → Fields Entry → Prop} (nil : motive [] [])
    (cons : ∀ name leftEntry rightEntry leftRest rightRest, related leftEntry rightEntry →
      motive leftRest rightRest →
      motive ((name, leftEntry) :: leftRest) ((name, rightEntry) :: rightRest))
    {left right : Fields Entry} (leftAscending : Ascending left) (rightAscending : Ascending right)
    (relates : ∀ name, Option.Rel related (get? name left) (get? name right)) :
    motive left right := by
  induction left generalizing right with
  | nil =>
      cases right with
      | nil => exact nil
      | cons pair rest =>
          have found := relates pair.1
          rw [get?_cons_self pair.1 pair.2 rest] at found
          cases found
  | cons leftPair leftRest inductionHypothesis =>
      obtain ⟨leftName, leftEntry⟩ := leftPair
      cases right with
      | nil =>
          have found := relates leftName
          rw [get?_cons_self] at found
          cases found
      | cons rightPair rightRest =>
          obtain ⟨rightName, rightEntry⟩ := rightPair
          have names : leftName = rightName := by
            cases order : compare leftName rightName with
            | eq => exact Std.LawfulEqOrd.eq_of_compare order
            | lt =>
                have found := relates leftName
                rw [get?_cons_self, get?_eq_none_of_lt_first rightAscending order] at found
                cases found
            | gt =>
                have found := relates rightName
                rw [get?_cons_self, get?_eq_none_of_lt_first leftAscending
                  (Std.OrientedCmp.lt_of_gt order)] at found
                cases found
          subst names
          have first := relates leftName
          rw [get?_cons_self, get?_cons_self] at first
          have rests : motive leftRest rightRest := by
            apply inductionHypothesis (List.pairwise_cons.mp leftAscending).2
              (List.pairwise_cons.mp rightAscending).2
            intro name
            by_cases same : leftName = name
            · subst same
              rw [get?_eq_none_of_ascending_cons leftAscending,
                get?_eq_none_of_ascending_cons rightAscending]
              exact .none
            · have found := relates name
              rwa [get?_cons_of_ne same, get?_cons_of_ne same] at found
          cases first with
          | some entries => exact cons leftName _ _ _ _ entries rests

/-- An ascending map is determined by what looking up gives. -/
theorem eq_of_get?_eq {left right : Fields Entry} (leftAscending : Ascending left)
    (rightAscending : Ascending right) (same : ∀ name, get? name left = get? name right) :
    left = right := by
  have relates (name : String) : Option.Rel Eq (get? name left) (get? name right) := by
    rw [same]
    cases get? name right with
    | none => exact .none
    | some entry => exact .some rfl
  refine relatedInduction (motive := Eq) rfl ?_ leftAscending rightAscending relates
  rintro name entry _ rest _ rfl rfl
  rfl

theorem get?_set (name other : String) (entry : Entry) (fields : Fields Entry) :
    get? other (set name entry fields) =
      if other = name then some entry else get? other fields := by
  by_cases same : other = name
  · subst same
    rw [get?_set_self, if_pos rfl]
  · rw [get?_set_of_ne same, if_neg same]

@[simp]
theorem get?_erase_of_ne (different : other ≠ name) (fields : Fields Entry) :
    get? other (erase name fields) = get? other fields := by
  induction fields with
  | nil => rfl
  | cons pair rest inductionHypothesis =>
      obtain ⟨key, entry⟩ := pair
      by_cases same : key = name
      · subst same
        simp [erase, get?_cons_of_ne (Ne.symm different)]
      · simp [erase, same, get?, inductionHypothesis]

theorem erase_sublist (name : String) (fields : Fields Entry) :
    (erase name fields).Sublist fields := by
  induction fields with
  | nil => exact List.Sublist.refl _
  | cons pair rest inductionHypothesis =>
      obtain ⟨key, entry⟩ := pair
      rw [erase]
      split
      · exact List.sublist_cons_self _ _
      · exact inductionHypothesis.cons_cons _

theorem ascending_erase (name : String) (ascending : Ascending fields) :
    Ascending (erase name fields) :=
  ascending.sublist (erase_sublist name fields)

@[simp]
theorem get?_erase_self (ascending : Ascending fields) : get? name (erase name fields) = none := by
  induction fields with
  | nil => rfl
  | cons pair rest inductionHypothesis =>
      obtain ⟨key, entry⟩ := pair
      rw [erase]
      split
      · next same =>
          subst same
          exact get?_eq_none_of_ascending_cons ascending
      · next different =>
          rw [get?_cons_of_ne different]
          exact inductionHypothesis (List.pairwise_cons.mp ascending).2

/-- The entries under names that have a change, each changed as its name says. -/
def mapKnown {Other : Type u} (change? : String → Option (Entry → Other)) (fields : Fields Entry) :
    Fields Other :=
  fields.filterMap fun pair => (change? pair.1).map fun change => (pair.1, change pair.2)

theorem mapKnown_cons {Other : Type u} (change? : String → Option (Entry → Other)) (entry : Entry)
    (rest : Fields Entry) :
    mapKnown change? ((name, entry) :: rest) =
      match change? name with
      | some change => (name, change entry) :: mapKnown change? rest
      | none => mapKnown change? rest := by
  rw [mapKnown, List.filterMap_cons]
  cases change? name with
  | none => rfl
  | some change => rfl

theorem get?_mapKnown {Other : Type u} (change? : String → Option (Entry → Other)) (name : String)
    (fields : Fields Entry) :
    get? name (mapKnown change? fields) =
      (change? name).bind fun change => (get? name fields).map change := by
  induction fields with
  | nil => cases change? name <;> rfl
  | cons pair rest inductionHypothesis =>
      obtain ⟨key, entry⟩ := pair
      rw [mapKnown_cons]
      by_cases same : key = name
      · subst same
        cases kept : change? key with
        | none => simpa [kept] using inductionHypothesis
        | some change => simp [get?]
      · rw [get?_cons_of_ne same, ← inductionHypothesis]
        cases change? key with
        | none => rfl
        | some change => exact get?_cons_of_ne same _ _

@[simp]
theorem get?_filter (keeps : String → Bool) (name : String) (fields : Fields Entry) :
    get? name (fields.filter fun pair => keeps pair.1) =
      if keeps name then get? name fields else none := by
  induction fields with
  | nil => simp
  | cons pair rest inductionHypothesis =>
      obtain ⟨key, entry⟩ := pair
      rw [List.filter_cons]
      by_cases same : key = name
      · subst same
        cases kept : keeps key with
        | true => simp [get?]
        | false => simpa [kept] using inductionHypothesis
      · rw [get?_cons_of_ne same, ← inductionHypothesis]
        split
        · exact get?_cons_of_ne same entry _
        · rfl

/-- Of several entries for a name the last one counts. -/
theorem get?_ofList (name : String) (pairs : List (String × Entry)) :
    get? name (ofList pairs) = get? name pairs.reverse := by
  rw [← List.reverse_reverse pairs]
  generalize pairs.reverse = reversed
  rw [List.reverse_reverse]
  induction reversed with
  | nil => rfl
  | cons pair rest inductionHypothesis =>
      obtain ⟨key, entry⟩ := pair
      rw [ofList, List.reverse_cons, List.foldl_append, List.foldl_cons, List.foldl_nil, ← ofList,
        get?_set]
      by_cases same : name = key
      · rw [if_pos same, same, get?_cons_self]
      · rw [if_neg same, get?_cons_of_ne (Ne.symm same), inductionHypothesis]

theorem get?_ofList_map (entryOf : String → Entry) (listed : List String) (name : String) :
    get? name (ofList (listed.map fun column => (column, entryOf column))) =
      if name ∈ listed then some (entryOf name) else none := by
  have folded (fields : Fields Entry) :
      get? name ((listed.map fun column => (column, entryOf column)).foldl
          (fun fields pair => set pair.1 pair.2 fields) fields) =
        if name ∈ listed then some (entryOf name) else get? name fields := by
    induction listed generalizing fields with
    | nil => simp
    | cons first rest inductionHypothesis =>
        rw [List.map_cons, List.foldl_cons, inductionHypothesis, get?_set]
        by_cases later : name ∈ rest
        · simp [later]
        · by_cases same : name = first
          · simp [same]
          · simp [later, same]
  exact folded []

/-- A map that was made of entries under different names has these entries and no others. -/
theorem get?_ofList_eq_some_iff {pairs : List (String × Entry)} (distinct : (names pairs).Nodup)
    {entry : Entry} : get? name (ofList pairs) = some entry ↔ (name, entry) ∈ pairs := by
  have folded (fields : Fields Entry) :
      get? name (pairs.foldl (fun fields pair => set pair.1 pair.2 fields) fields) = some entry ↔
        (name, entry) ∈ pairs ∨ name ∉ names pairs ∧ get? name fields = some entry := by
    induction pairs generalizing fields with
    | nil => simp [names]
    | cons pair rest inductionHypothesis =>
        obtain ⟨key, first⟩ := pair
        obtain ⟨fresh, restDistinct⟩ := List.nodup_cons.mp distinct
        rw [List.foldl_cons, inductionHypothesis restDistinct, get?_set, List.mem_cons]
        have named : name ∈ names ((key, first) :: rest) ↔ name = key ∨ name ∈ names rest :=
          List.mem_cons
        rw [named]
        by_cases same : name = key
        · subst same
          have unnamed : name ∉ names rest := fresh
          have absent : (name, entry) ∉ rest := fun member =>
            unnamed (List.mem_map.mpr ⟨_, member, rfl⟩)
          simp [unnamed, absent, eq_comm]
        · simp [same]
  rw [ofList, folded []]
  simp

theorem Ascending.eq_of_perm {others : Fields Entry} (ascending : Ascending fields)
    (othersAscending : Ascending others) (perm : fields.Perm others) : fields = others := by
  refine perm.eq_of_pairwise ?_ ascending othersAscending
  intro left right _ _ below above
  rw [Std.OrientedCmp.gt_of_lt below] at above
  cases above

@[simp]
theorem ascending_nil : Ascending ([] : Fields Entry) := List.Pairwise.nil

theorem Ascending.nodup_names (ascending : Ascending fields) : (names fields).Nodup := by
  apply List.pairwise_map.mpr
  refine ascending.imp ?_
  intro left right below same
  rw [same] at below
  simp at below

/-- The map has exactly the listed names. -/
structure HasNames (listed : List String) (fields : Fields Entry) : Prop where
  ascending : Ascending fields
  mem_names : ∀ name, name ∈ names fields ↔ name ∈ listed

namespace HasNames

variable {listed : List String}

theorem nil : HasNames [] ([] : Fields Entry) := ⟨ascending_nil, fun _ => Iff.rfl⟩

theorem congr {others : List String} (has : HasNames listed fields)
    (same : ∀ name, name ∈ listed ↔ name ∈ others) : HasNames others fields :=
  ⟨has.ascending, fun name => (has.mem_names name).trans (same name)⟩

theorem set (has : HasNames listed fields) (name : String) (entry : Entry) :
    HasNames (name :: listed) (set name entry fields) := by
  refine ⟨ascending_set name entry has.ascending, ?_⟩
  intro other
  rw [← get?_isSome_iff_mem_names, get?_set, List.mem_cons, ← has.mem_names other,
    ← get?_isSome_iff_mem_names]
  by_cases same : other = name <;> simp [same]

end HasNames

/-- The map has exactly the listed names, and each of them holds what `entryOf` says. -/
structure HasExactly (listed : List String) (entryOf : String → Entry) (fields : Fields Entry) :
    Prop where
  ascending : Ascending fields
  get?_eq : ∀ name, get? name fields = if name ∈ listed then some (entryOf name) else none

namespace HasExactly

variable {listed : List String} {entryOf otherOf : String → Entry} {others : Fields Entry}

theorem ofList_map (entryOf : String → Entry) (listed : List String) :
    HasExactly listed entryOf (ofList (listed.map fun column => (column, entryOf column))) :=
  ⟨ascending_ofList _, get?_ofList_map entryOf listed⟩

theorem eq_iff (left : HasExactly listed entryOf fields)
    (right : HasExactly listed otherOf others) :
    fields = others ↔ ∀ name ∈ listed, entryOf name = otherOf name := by
  constructor
  · rintro rfl name member
    have entries := (left.get?_eq name).symm.trans (right.get?_eq name)
    simpa [member] using entries
  · intro same
    apply eq_of_get?_eq left.ascending right.ascending
    intro name
    rw [left.get?_eq, right.get?_eq]
    by_cases member : name ∈ listed
    · simp [member, same name member]
    · simp [member]

theorem hasNames (exact : HasExactly listed entryOf fields) : HasNames listed fields := by
  refine ⟨exact.ascending, ?_⟩
  intro name
  rw [← get?_isSome_iff_mem_names, exact.get?_eq]
  by_cases member : name ∈ listed <;> simp [member]

end HasExactly

end Fields

end EntityCursor
