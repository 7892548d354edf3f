/-!
Sorting by a comparison that is a total preorder. A sorted list has the entries it was made of, none
of them comes after a greater one, and entries that tie stay in the order they had.
-/

namespace EntityCursor

namespace Sorting

universe u v

variable {Entry : Type u} {Thing : Type v} {order : Entry → Entry → Ordering}

variable (order) in
theorem transCmp_on [Std.TransCmp order] (reading : Thing → Entry) :
    Std.TransCmp fun left right => order (reading left) (reading right) where
  eq_swap := Std.OrientedCmp.eq_swap
  isLE_trans := Std.TransCmp.isLE_trans

variable [Std.TransCmp order]

theorem merge_transitive (first second third : Entry)
    (firstLow : (order first second != .gt) = true)
    (secondLow : (order second third != .gt) = true) : (order first third != .gt) = true := by
  rw [bne_iff_ne] at *
  exact Ordering.isLE_iff_ne_gt.mp <| Std.TransCmp.isLE_trans
    (Ordering.isLE_iff_ne_gt.mpr firstLow) (Ordering.isLE_iff_ne_gt.mpr secondLow)

theorem merge_total (left right : Entry) :
    ((order left right != .gt) || (order right left != .gt)) = true := by
  have swapped : order right left = (order left right).swap := Std.OrientedCmp.eq_swap
  rw [swapped]
  cases order left right <;> rfl

variable (order) in
theorem pairwise_mergeSort (entries : List Entry) :
    (entries.mergeSort fun left right => order left right != .gt).Pairwise
      fun earlier later => order earlier later ≠ .gt := by
  apply (List.pairwise_mergeSort merge_transitive merge_total entries).imp
  intro earlier later low
  exact bne_iff_ne.mp low

variable (order) in
/-- Entries that tie with a given one stay in the order they had. -/
theorem filter_mergeSort (entry : Entry) (entries : List Entry) :
    (entries.mergeSort fun left right => order left right != .gt).filter (order entry · == .eq) =
      entries.filter (order entry · == .eq) := by
  have sorted := List.mergeSort_perm entries fun left right => order left right != .gt
  -- The tied entries are in order already, so that sorting leaves them where they are.
  have tied : (entries.filter (order entry · == .eq)).Pairwise
      fun earlier later => (order earlier later != .gt) = true := by
    refine List.pairwise_iff_forall_sublist.mpr ?_
    intro earlier later sublist
    have ties : ∀ other ∈ [earlier, later], order entry other = .eq := by
      intro other member
      exact beq_iff_eq.mp (List.mem_filter.mp (sublist.mem member)).2
    rw [← Std.TransCmp.congr_left (ties earlier (by simp)), ties later (by simp)]
    rfl
  have kept := (List.sublist_mergeSort merge_transitive merge_total tied
    List.filter_sublist).filter (order entry · == .eq)
  rw [List.filter_filter] at kept
  simp only [Bool.and_self] at kept
  exact (kept.eq_of_length (sorted.filter _).length_eq.symm).symm

end Sorting

end EntityCursor
