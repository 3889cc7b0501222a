import QuicView.Library.Hull
import QuicView.Library.SignedWords
import QuicView.Protocol.Display

namespace QuicView

open Hull

namespace DisplayEntry

def right (e : DisplayEntry) : ℤ := e.x.toInt + e.resolution.width.toNat

def bottom (e : DisplayEntry) : ℤ := e.y.toInt + e.resolution.height.toNat

def rect (e : DisplayEntry) : Set (ℤ × ℤ) :=
  Set.Icc (e.x.toInt, e.y.toInt) (e.right, e.bottom)

end DisplayEntry

def boxRect (box : Int32 × Int32 × UInt32 × UInt32) : Set (ℤ × ℤ) :=
  Set.Icc (box.1.toInt, box.2.1.toInt)
    (box.1.toInt + box.2.2.1.toNat, box.2.1.toInt + box.2.2.2.toNat)

namespace DisplayLayout

/-- Edges and extents are in the range of the layout's integers. -/
structure Fits (layout : DisplayLayout) : Prop where
  right : ∀ e ∈ layout.entries, e.right < 2 ^ 31
  bottom : ∀ e ∈ layout.entries, e.bottom < 2 ^ 31
  width : ∀ e ∈ layout.entries, ∀ f ∈ layout.entries, e.right - f.x.toInt < 2 ^ 31
  height : ∀ e ∈ layout.entries, ∀ f ∈ layout.entries, e.bottom - f.y.toInt < 2 ^ 31

section Folds

variable {Index : Type*} {entries : List Index} {f : Index → Int32}

theorem min_attained (hne : entries ≠ []) :
    (∃ e ∈ entries, f e = (entries.map f).min?.getD 0)
      ∧ ∀ e ∈ entries, (entries.map f).min?.getD 0 ≤ f e := by
  cases hmin : (entries.map f).min? with
  | none => exact absurd (List.map_eq_nil_iff.mp (List.min?_eq_none_iff.mp hmin)) hne
  | some a =>
      obtain ⟨hmem, hle⟩ := List.min?_eq_some_iff.mp hmin
      exact ⟨List.mem_map.mp hmem, List.forall_mem_map.mp hle⟩

theorem max_attained (hne : entries ≠ []) :
    (∃ e ∈ entries, f e = (entries.map f).max?.getD 0)
      ∧ ∀ e ∈ entries, f e ≤ (entries.map f).max?.getD 0 := by
  cases hmax : (entries.map f).max? with
  | none => exact absurd (List.map_eq_nil_iff.mp (List.max?_eq_none_iff.mp hmax)) hne
  | some a =>
      obtain ⟨hmem, hge⟩ := List.max?_eq_some_iff.mp hmax
      exact ⟨List.mem_map.mp hmem, List.forall_mem_map.mp hge⟩

end Folds

def span.lo (entries : List DisplayEntry) (start : DisplayEntry → Int32) : Int32 :=
  (entries.map start).min?.getD 0

def span.hi (entries : List DisplayEntry) (start : DisplayEntry → Int32)
    (size : DisplayEntry → UInt32) : Int32 :=
  (entries.map fun e => start e + (size e).toInt32).max?.getD 0

def span (entries : List DisplayEntry) (start : DisplayEntry → Int32)
    (size : DisplayEntry → UInt32) : Int32 × UInt32 :=
  (span.lo entries start, (span.hi entries start size - span.lo entries start).toUInt32)

section Span

variable {entries : List DisplayEntry} {start : DisplayEntry → Int32}
  {size : DisplayEntry → UInt32}

theorem isHull_ends (hne : entries ≠ [])
    (hends : ∀ e ∈ entries, (start e).toInt + (size e).toNat < 2 ^ 31) :
    IsHull {e | e ∈ entries} (fun e => (start e).toInt)
      (fun e => (start e).toInt + (size e).toNat) (span.lo entries start).toInt
      (span.hi entries start size).toInt := by
  have hsum : ∀ e ∈ entries,
      (start e + (size e).toInt32).toInt = (start e).toInt + (size e).toNat :=
    fun e hmem => Int32.toInt_add_toInt32 (hends e hmem)
  obtain ⟨⟨first, hfirst, hfirstLo⟩, hle⟩ := min_attained (f := start) hne
  obtain ⟨⟨last, hlast, hlastHi⟩, hge⟩ :=
    max_attained (f := fun e => start e + (size e).toInt32) hne
  apply IsHull.of_attained
  · exact ⟨first, hfirst, congrArg Int32.toInt hfirstLo⟩
  · exact fun e hmem => Int32.le_iff_toInt_le.mp (hle e hmem)
  · refine ⟨last, hlast, ?_⟩
    rw [← hsum last hlast]
    exact congrArg Int32.toInt hlastHi
  · intro e hmem
    rw [← hsum e hmem]
    exact Int32.le_iff_toInt_le.mp (hge e hmem)

theorem isHull_span (hne : entries ≠ [])
    (hends : ∀ e ∈ entries, (start e).toInt + (size e).toNat < 2 ^ 31)
    (hextents : ∀ e ∈ entries, ∀ f ∈ entries,
      (start e).toInt + (size e).toNat - (start f).toInt < 2 ^ 31) :
    IsHull {e | e ∈ entries} (fun e => (start e).toInt)
      (fun e => (start e).toInt + (size e).toNat) (span entries start size).1.toInt
      ((span entries start size).1.toInt + (span entries start size).2.toNat) := by
  have hhull := isHull_ends hne hends
  have hextent : (span.hi entries start size).toInt - (span.lo entries start).toInt < 2 ^ 31 := by
    rw [← Int.le_sub_one_iff, hhull.extent_le_iff]
    exact fun e hmem f hmem' => Int.le_sub_one_iff.mpr (hextents e hmem f hmem')
  obtain ⟨e, hmem⟩ := List.exists_mem_of_ne_nil entries hne
  have hordered : (span.lo entries start).toInt ≤ (span.hi entries start size).toInt :=
    calc (span.lo entries start).toInt
      _ ≤ (start e).toInt := hhull.lower.1 (Set.mem_image_of_mem _ hmem)
      _ ≤ (start e).toInt + (size e).toNat := Int.le_add_of_nonneg_right (Int.natCast_nonneg _)
      _ ≤ (span.hi entries start size).toInt := hhull.upper.1 (Set.mem_image_of_mem _ hmem)
  have hsize : ((span entries start size).2.toNat : ℤ)
      = (span.hi entries start size).toInt - (span.lo entries start).toInt :=
    Int32.toNat_sub_toUInt32 hordered hextent
  rw [hsize]
  have hupper : (span entries start size).1.toInt
      + ((span.hi entries start size).toInt - (span.lo entries start).toInt)
      = (span.hi entries start size).toInt := add_sub_cancel _ _
  rw [hupper]
  exact hhull

end Span

theorem span_perm {entries entries' : List DisplayEntry} (hperm : entries.Perm entries')
    (start : DisplayEntry → Int32) (size : DisplayEntry → UInt32) :
    span entries start size = span entries' start size := by
  rw [span, span, span.lo, span.lo, span.hi, span.hi, List.min?_eq_of_perm (hperm.map start),
    List.max?_eq_of_perm (hperm.map fun e => start e + (size e).toInt32)]

theorem boundingBox_eq {layout : DisplayLayout} (hne : layout.entries ≠ []) :
    layout.boundingBox =
      let across := span layout.entries (fun e => e.x) (fun e => e.resolution.width)
      let down := span layout.entries (fun e => e.y) (fun e => e.resolution.height)
      (across.1, down.1, across.2, down.2) := by
  rw [boundingBox, if_neg (mt List.isEmpty_iff.mp hne)]
  rfl

theorem boundingBox_perm {layout layout' : DisplayLayout}
    (hperm : layout.entries.Perm layout'.entries) : layout.boundingBox = layout'.boundingBox := by
  by_cases hne : layout.entries = []
  · have hne' : layout'.entries = [] := by
      rw [← List.nil_perm, ← hne]
      exact hperm
    rw [boundingBox, boundingBox, hne, hne']
  · have hne' : layout'.entries ≠ [] := fun heq => hne (List.perm_nil.mp (heq ▸ hperm))
    rw [boundingBox_eq hne, boundingBox_eq hne', span_perm hperm, span_perm hperm]

theorem isHull_boundingBox {layout : DisplayLayout} (hne : layout.entries ≠ [])
    (hfits : layout.Fits) :
    IsHull {e | e ∈ layout.entries} (fun e => (e.x.toInt, e.y.toInt))
      (fun e => (e.right, e.bottom)) (layout.boundingBox.1.toInt, layout.boundingBox.2.1.toInt)
      (layout.boundingBox.1.toInt + layout.boundingBox.2.2.1.toNat,
        layout.boundingBox.2.1.toInt + layout.boundingBox.2.2.2.toNat) := by
  rw [boundingBox_eq hne]
  exact (isHull_span hne hfits.right hfits.width).prod (isHull_span hne hfits.bottom hfits.height)

/-- **The bounding box is exact.** It holds the rectangle of every entry, is held by every box that
does so, and does not depend on the order of the entries. -/
theorem bounding_box_is_exact (layout : DisplayLayout) (hne : layout.entries ≠ [])
    (hfits : layout.Fits) :
    (∀ e ∈ layout.entries, e.rect ⊆ boxRect layout.boundingBox)
      ∧ (∀ lo hi, (∀ e ∈ layout.entries, e.rect ⊆ Set.Icc lo hi) →
          boxRect layout.boundingBox ⊆ Set.Icc lo hi)
      ∧ ∀ layout' : DisplayLayout, layout.entries.Perm layout'.entries →
          layout'.boundingBox = layout.boundingBox := by
  have hhull := isHull_boundingBox hne hfits
  refine ⟨?_, ?_, ?_⟩
  · intro e hmem
    exact hhull.subset hmem
  · intro lo hi hencloses
    apply hhull.subset_of_encloses ?_ hencloses
    intro e _
    constructor
    · exact Int.le_add_of_nonneg_right (Int.natCast_nonneg _)
    · exact Int.le_add_of_nonneg_right (Int.natCast_nonneg _)
  · intro layout' hperm
    exact (boundingBox_perm hperm).symm

theorem bounding_box_is_exact_side_by_side :
    boxRect (DisplayLayout.mk [⟨⟨1⟩, 0, 0, ⟨1920, 1080⟩⟩, ⟨⟨2⟩, -800, 600, ⟨800, 600⟩⟩]).boundingBox
      ⊆ Set.Icc (-800, 0) (1920, 1200) := by
  have hfits : (DisplayLayout.mk
      [⟨⟨1⟩, 0, 0, ⟨1920, 1080⟩⟩, ⟨⟨2⟩, -800, 600, ⟨800, 600⟩⟩]).Fits :=
    ⟨by decide, by decide, by decide, by decide⟩
  apply (bounding_box_is_exact _ (by decide) hfits).2.1
  intro e hmem
  rcases List.mem_pair.mp hmem with rfl | rfl
  · exact Set.Icc_subset_Icc (by decide) (by decide)
  · exact Set.Icc_subset_Icc (by decide) (by decide)

end DisplayLayout

end QuicView
