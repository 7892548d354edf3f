import EntityCursor.Proofs.Sorting
import EntityCursor.Proofs.Value.Order
import EntityCursor.Query.Basic

/-!
The order under sort keys. Comparing by keys is a total preorder whatever the keys are, and it puts
one thing after another exactly if the first key that tells the two apart does. So a list that was
sorted by this comparison is in the order that its keys ask for.
-/

namespace EntityCursor

namespace SortKey

instance (key : SortKey) : Std.TransCmp key.compare where
  eq_swap := by
    intro left right
    unfold compare
    rw [Value.compare_swap right left]
    split <;> simp
  isLE_trans := by
    intro first second third
    unfold compare
    split
    · exact Std.TransCmp.isLE_trans
    · rw [← Value.compare_swap, ← Value.compare_swap, ← Value.compare_swap]
      intro secondLow thirdLow
      exact Std.TransCmp.isLE_trans thirdLow secondLow

theorem compareAll_swap (keys : List SortKey) (left right : List Value) :
    compareAll keys right left = (compareAll keys left right).swap := by
  induction keys generalizing left right with
  | nil => rfl
  | cons key rest inductionHypothesis =>
      cases left <;> cases right
      · rfl
      · rfl
      · rfl
      · rw [compareAll, compareAll, Ordering.swap_then, inductionHypothesis]
        exact congrArg (Ordering.then · _) Std.OrientedCmp.eq_swap

theorem compareAll_fits {keys : List SortKey} {first second third : List Value}
    (forFirst : first.length = keys.length) (forSecond : second.length = keys.length)
    (forThird : third.length = keys.length) :
    Ordering.Fits (compareAll keys first second) (compareAll keys second third)
      (compareAll keys first third) := by
  induction keys generalizing first second third with
  | nil => exact fun _ _ => rfl
  | cons key rest inductionHypothesis =>
      obtain ⟨_, firstRest, rfl⟩ := List.exists_cons_of_length_eq_add_one forFirst
      obtain ⟨_, secondRest, rfl⟩ := List.exists_cons_of_length_eq_add_one forSecond
      obtain ⟨_, thirdRest, rfl⟩ := List.exists_cons_of_length_eq_add_one forThird
      simp only [List.length_cons, Nat.add_right_cancel_iff] at forFirst forSecond forThird
      exact (Ordering.Fits.of_order key.compare _ _ _).append fun _ _ =>
        inductionHypothesis forFirst forSecond forThird

/-- A value for every key. -/
abbrev Values (keys : List SortKey) := { values : List Value // values.length = keys.length }

instance transCmp_values (keys : List SortKey) :
    Std.TransCmp fun left right : Values keys => compareAll keys left.1 right.1 where
  eq_swap := compareAll_swap keys _ _
  isLE_trans {first second third} :=
    (compareAll_fits first.property second.property third.property).isLE

/-! Readings: what a thing has under each key. -/

/-- The first key that tells two readings apart puts the left one first. -/
def InOrder (keys : List SortKey) (left right : SortKey → Value) : Prop :=
  ∀ front key back, keys = front ++ key :: back →
    (∀ earlier ∈ front, (left earlier).compare (right earlier) = .eq) →
    (left key).compare (right key) ≠ .eq →
    (left key).compare (right key) = if key.ascending then .lt else .gt

def ties (keys : List SortKey) (left right : SortKey → Value) : Bool :=
  keys.all fun key => (left key).compare (right key) == .eq

/-- The entries of a list in another order: no entry is lost, and of any two entries the earlier one
comes first by the first key that tells them apart. -/
structure Arranges {Entry : Type} (keys : List SortKey) (reading : Entry → SortKey → Value)
    (entries arranged : List Entry) : Prop where
  perm : arranged.Perm entries
  ordered : arranged.Pairwise fun earlier later => InOrder keys (reading earlier) (reading later)

variable {Entry : Type} {keys rest : List SortKey} {key : SortKey}
  {reading : Entry → SortKey → Value} {left right : SortKey → Value}

def compareBy (keys : List SortKey) (reading : Entry → SortKey → Value) (left right : Entry) :
    Ordering :=
  compareAll keys (keys.map (reading left)) (keys.map (reading right))

instance transCmp_compareBy (keys : List SortKey) (reading : Entry → SortKey → Value) :
    Std.TransCmp (compareBy keys reading) :=
  Sorting.transCmp_on (fun left right : Values keys => compareAll keys left.1 right.1)
    fun entry => ⟨keys.map (reading entry), List.length_map (reading entry)⟩

theorem compareBy_cons (left right : Entry) :
    compareBy (key :: rest) reading left right =
      (key.compare (reading left key) (reading right key)).then
        (compareBy rest reading left right) := rfl

@[simp]
theorem inOrder_nil (left right : SortKey → Value) : InOrder [] left right := by
  intro front key back split
  simp at split

theorem inOrder_cons_iff :
    InOrder (key :: rest) left right ↔
      ((left key).compare (right key) ≠ .eq →
        (left key).compare (right key) = if key.ascending then .lt else .gt) ∧
      ((left key).compare (right key) = .eq → InOrder rest left right) := by
  constructor
  · intro ordered
    refine ⟨ordered [] key rest rfl (by simp), ?_⟩
    intro tie front later back split ties
    exact ordered (key :: front) later back (by rw [split]; rfl)
      (List.forall_mem_cons.mpr ⟨tie, ties⟩)
  · rintro ⟨here, below⟩ front later back split ties
    cases front with
    | nil =>
        cases split
        exact here
    | cons first others =>
        cases split
        obtain ⟨tie, othersTie⟩ := List.forall_mem_cons.mp ties
        exact below tie others later back rfl othersTie

theorem compare_eq_iff (key : SortKey) {left right : Value} :
    key.compare left right = .eq ↔ left.compare right = .eq := by
  unfold compare
  split
  · rfl
  · rw [Ordering.swap_eq_eq]

theorem compare_ne_gt_iff {left right : Value} : key.compare left right ≠ .gt ↔
    (left.compare right ≠ .eq → left.compare right = if key.ascending then .lt else .gt) := by
  unfold compare
  cases key.ascending <;> cases left.compare right <;> simp

@[simp]
theorem inOrder_singleton_iff :
    InOrder [key] left right ↔ key.compare (left key) (right key) ≠ .gt := by
  rw [inOrder_cons_iff, compare_ne_gt_iff]
  exact and_iff_left fun _ => inOrder_nil left right

@[simp]
theorem compareBy_ne_gt_iff {left right : Entry} :
    compareBy keys reading left right ≠ .gt ↔ InOrder keys (reading left) (reading right) := by
  induction keys with
  | nil => exact iff_of_true (by simp [compareBy, compareAll]) (inOrder_nil _ _)
  | cons key rest inductionHypothesis =>
      rw [compareBy_cons, inOrder_cons_iff, ← inductionHypothesis, ← compare_ne_gt_iff,
        ← compare_eq_iff key]
      cases key.compare (reading left key) (reading right key) <;> simp [Ordering.then]

@[simp]
theorem compareBy_eq_iff {left right : Entry} :
    compareBy keys reading left right = .eq ↔ ties keys (reading left) (reading right) = true := by
  induction keys with
  | nil => exact iff_of_true rfl rfl
  | cons key rest inductionHypothesis =>
      rw [compareBy_cons, Ordering.then_eq_eq, compare_eq_iff, inductionHypothesis, ties, ties,
        List.all_cons, Bool.and_eq_true, beq_iff_eq]

variable (keys reading)

theorem arranges_mergeSort (entries : List Entry) :
    Arranges keys reading entries
      (entries.mergeSort fun left right => compareBy keys reading left right != .gt) := by
  refine ⟨List.mergeSort_perm _ _, ?_⟩
  apply (Sorting.pairwise_mergeSort (compareBy keys reading) entries).imp
  intro earlier later low
  exact compareBy_ne_gt_iff.mp low

theorem filter_mergeSort_ties (entry : Entry) (entries : List Entry) :
    (entries.mergeSort fun left right => compareBy keys reading left right != .gt).filter
        (fun other => ties keys (reading entry) (reading other)) =
      entries.filter fun other => ties keys (reading entry) (reading other) := by
  have tied : (fun other => ties keys (reading entry) (reading other)) =
      fun other => compareBy keys reading entry other == .eq := by
    funext other
    rw [Bool.eq_iff_iff, beq_iff_eq, compareBy_eq_iff]
  rw [tied]
  exact Sorting.filter_mergeSort _ entry entries

end SortKey

end EntityCursor
