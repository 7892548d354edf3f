/-!
Finite maps from names, written as lists of pairs. A map built with `Fields.set` keeps its names in
strictly ascending order, so that two maps with the same entries are the same list and a walk over a
map meets the names in order. Names are compared by code points, which is also the order of their
encoded bytes.
-/

namespace EntityCursor

universe u

/-- Entries filed under names. -/
abbrev Fields (Entry : Type u) := List (String × Entry)

namespace Fields

variable {Entry : Type u}

def get? (name : String) : Fields Entry → Option Entry
  | [] => none
  | (key, entry) :: rest => if key = name then some entry else get? name rest

def contains (name : String) (fields : Fields Entry) : Bool :=
  (get? name fields).isSome

/-- Files `entry` under `name`, in place of an entry already there. -/
def set (name : String) (entry : Entry) : Fields Entry → Fields Entry
  | [] => [(name, entry)]
  | (key, old) :: rest =>
      match compare name key with
      | .lt => (name, entry) :: (key, old) :: rest
      | .eq => (name, entry) :: rest
      | .gt => (key, old) :: set name entry rest

def erase (name : String) : Fields Entry → Fields Entry
  | [] => []
  | (key, entry) :: rest => if key = name then rest else (key, entry) :: erase name rest

/-- The map of `pairs`, where the last of several entries for a name counts. -/
def ofList (pairs : List (String × Entry)) : Fields Entry :=
  pairs.foldl (fun fields pair => set pair.1 pair.2 fields) []

def names (fields : Fields Entry) : List String :=
  fields.map Prod.fst

/-- The names are in strictly ascending order. -/
def Ascending (fields : Fields Entry) : Prop :=
  fields.Pairwise fun left right => compare left.1 right.1 = .lt

@[simp]
theorem get?_nil (name : String) : get? name ([] : Fields Entry) = none := rfl

@[simp]
theorem get?_set_self (name : String) (entry : Entry) (fields : Fields Entry) :
    get? name (set name entry fields) = some entry := by
  induction fields with
  | nil => simp [set, get?]
  | cons pair rest inductionHypothesis =>
      obtain ⟨key, old⟩ := pair
      cases order : compare name key with
      | lt => simp [set, order, get?]
      | eq => simp [set, order, get?]
      | gt =>
          have different : key ≠ name := by
            rintro rfl
            simp at order
          simp [set, order, get?, different, inductionHypothesis]

@[simp]
theorem get?_set_of_ne {name other : String} (different : other ≠ name) (entry : Entry)
    (fields : Fields Entry) : get? other (set name entry fields) = get? other fields := by
  induction fields with
  | nil => simp [set, get?, Ne.symm different]
  | cons pair rest inductionHypothesis =>
      obtain ⟨key, old⟩ := pair
      cases order : compare name key with
      | lt => simp [set, order, get?, Ne.symm different]
      | eq =>
          obtain rfl := Std.LawfulEqOrd.eq_of_compare order
          simp [set, get?, Ne.symm different]
      | gt => simp [set, order, get?, inductionHypothesis]

theorem mem_set {name key : String} {entry value : Entry} {fields : Fields Entry}
    (member : (key, value) ∈ set name entry fields) : key = name ∨ (key, value) ∈ fields := by
  induction fields with
  | nil => simp_all [set]
  | cons pair rest inductionHypothesis =>
      obtain ⟨first, old⟩ := pair
      cases order : compare name first with
      | lt => grind [set]
      | eq => grind [set]
      | gt => grind [set]

@[simp]
theorem ascending_set (name : String) (entry : Entry) {fields : Fields Entry}
    (ascending : Ascending fields) : Ascending (set name entry fields) := by
  induction fields with
  | nil => simp [set, Ascending]
  | cons pair rest inductionHypothesis =>
      obtain ⟨key, old⟩ := pair
      obtain ⟨above, restAscending⟩ := List.pairwise_cons.mp ascending
      cases order : compare name key with
      | lt =>
          simp only [set, order]
          refine List.pairwise_cons.mpr ⟨?_, ascending⟩
          intro other member
          rcases List.mem_cons.mp member with rfl | later
          · exact order
          · exact Std.TransCmp.lt_trans order (above other later)
      | eq =>
          obtain rfl := Std.LawfulEqOrd.eq_of_compare order
          simp only [set, order]
          exact List.pairwise_cons.mpr ⟨above, restAscending⟩
      | gt =>
          simp only [set, order]
          refine List.pairwise_cons.mpr ⟨?_, inductionHypothesis restAscending⟩
          intro other member
          rcases mem_set member with rfl | kept
          · exact Std.OrientedCmp.lt_of_gt order
          · exact above other kept

@[simp]
theorem ascending_ofList (pairs : List (String × Entry)) : Ascending (ofList pairs) := by
  have folded (fields : Fields Entry) (ascending : Ascending fields) :
      Ascending (pairs.foldl (fun fields pair => set pair.1 pair.2 fields) fields) := by
    induction pairs generalizing fields with
    | nil => exact ascending
    | cons pair rest inductionHypothesis =>
        exact inductionHypothesis _ (ascending_set pair.1 pair.2 ascending)
  exact folded [] List.Pairwise.nil

end Fields

end EntityCursor
