import Mathlib

/-!
# The hull of intervals

The smallest interval around some intervals. In a product of orders intervals are boxes, and the
hull is taken along each axis for itself.
-/

namespace Hull

variable {Index α β : Type*} [PartialOrder α] [PartialOrder β]

/-- `lo` to `hi` is the hull of the intervals from `lower i` to `upper i`. -/
structure IsHull (indices : Set Index) (lower upper : Index → α) (lo hi : α) : Prop where
  lower : IsGLB (lower '' indices) lo
  upper : IsLUB (upper '' indices) hi

variable {indices : Set Index} {lower upper : Index → α} {lo hi : α}

theorem IsHull.subset (h : IsHull indices lower upper lo hi) {i : Index} (hi' : i ∈ indices) :
    Set.Icc (lower i) (upper i) ⊆ Set.Icc lo hi :=
  Set.Icc_subset_Icc (h.lower.1 (Set.mem_image_of_mem _ hi'))
    (h.upper.1 (Set.mem_image_of_mem _ hi'))

theorem IsHull.subset_of_encloses (h : IsHull indices lower upper lo hi)
    (hspan : ∀ i ∈ indices, lower i ≤ upper i) {lo' hi' : α}
    (hencloses : ∀ i ∈ indices, Set.Icc (lower i) (upper i) ⊆ Set.Icc lo' hi') :
    Set.Icc lo hi ⊆ Set.Icc lo' hi' := by
  apply Set.Icc_subset_Icc
  · apply h.lower.2
    rintro _ ⟨i, hmem, rfl⟩
    exact ((Set.Icc_subset_Icc_iff (hspan i hmem)).mp (hencloses i hmem)).1
  · apply h.upper.2
    rintro _ ⟨i, hmem, rfl⟩
    exact ((Set.Icc_subset_Icc_iff (hspan i hmem)).mp (hencloses i hmem)).2

theorem IsHull.unique {lo' hi' : α} (h : IsHull indices lower upper lo hi)
    (h' : IsHull indices lower upper lo' hi') : lo = lo' ∧ hi = hi' :=
  ⟨h.lower.unique h'.lower, h.upper.unique h'.upper⟩

theorem IsHull.prod {lower' upper' : Index → β} {lo' hi' : β}
    (h : IsHull indices lower upper lo hi) (h' : IsHull indices lower' upper' lo' hi') :
    IsHull indices (fun i => (lower i, lower' i)) (fun i => (upper i, upper' i)) (lo, lo')
      (hi, hi') := by
  constructor
  · rw [isGLB_prod, Set.image_image, Set.image_image]
    exact ⟨h.lower, h'.lower⟩
  · rw [isLUB_prod, Set.image_image, Set.image_image]
    exact ⟨h.upper, h'.upper⟩

theorem IsHull.extent_le_iff [AddCommGroup α] [IsOrderedAddMonoid α]
    (h : IsHull indices lower upper lo hi) (bound : α) :
    hi - lo ≤ bound ↔ ∀ i ∈ indices, ∀ j ∈ indices, upper i - lower j ≤ bound := by
  constructor
  · intro hle i hi' j hj
    have hupper : upper i ≤ hi := h.upper.1 (Set.mem_image_of_mem _ hi')
    have hlower : lo ≤ lower j := h.lower.1 (Set.mem_image_of_mem _ hj)
    exact (sub_le_sub hupper hlower).trans hle
  · intro hall
    rw [sub_le_comm]
    apply h.lower.2
    rintro _ ⟨j, hj, rfl⟩
    rw [sub_le_iff_le_add]
    apply h.upper.2
    rintro _ ⟨i, hi', rfl⟩
    rw [← sub_le_iff_le_add']
    exact hall i hi' j hj

/-! ### The hull of a list -/

theorem IsHull.of_attained {entries : List Index} (hlower : ∃ i ∈ entries, lower i = lo)
    (hle : ∀ i ∈ entries, lo ≤ lower i) (hupper : ∃ i ∈ entries, upper i = hi)
    (hge : ∀ i ∈ entries, upper i ≤ hi) : IsHull {i | i ∈ entries} lower upper lo hi := by
  constructor
  · apply IsLeast.isGLB
    exact ⟨hlower, Set.forall_mem_image.mpr hle⟩
  · apply IsGreatest.isLUB
    exact ⟨hupper, Set.forall_mem_image.mpr hge⟩

end Hull

section Order

variable {α : Type*} [LE α] [Std.IsLinearOrder α] {entries entries' : List α}

theorem List.min?_eq_of_perm [Min α] [Std.LawfulOrderMin α] (hperm : entries.Perm entries') :
    entries.min? = entries'.min? := by
  ext a
  rw [List.min?_eq_some_iff, List.min?_eq_some_iff]
  simp only [hperm.mem_iff]

theorem List.max?_eq_of_perm [Max α] [Std.LawfulOrderMax α] (hperm : entries.Perm entries') :
    entries.max? = entries'.max? := by
  ext a
  rw [List.max?_eq_some_iff, List.max?_eq_some_iff]
  simp only [hperm.mem_iff]

end Order
