import Mathlib

/-!
# Rulers and their cells

A ruler divides the line into cells as long as its pitch, numbered from the origin. Of two rulers,
each cell of the longer pitch runs ahead of that of the same number on the other, by the difference
of the pitches; two cells are apart exactly if this drift is no longer than the cells between.
-/

namespace Ruler

variable {R : Type*} [CommRing R] [LinearOrder R] [IsStrictOrderedRing R]

def cell (pitch index : R) : Set R := Set.Ico (index * pitch) (index * pitch + pitch)

/-- The drift up to the end of the first cell is no longer than the cells of the second ruler that
lie between the two. -/
def Clears (pitch index pitch' index' : R) : Prop :=
  (index + 1) * (pitch - pitch') ≤ (index' - index - 1) * pitch'

instance (pitch index pitch' index' : R) : Decidable (Clears pitch index pitch' index') :=
  inferInstanceAs (Decidable (_ ≤ _))

variable {pitch pitch' : R}

theorem clears_iff (index index' : R) :
    Clears pitch index pitch' index' ↔ index * pitch + pitch ≤ index' * pitch' := by
  have hgap : (index' - index - 1) * pitch' - (index + 1) * (pitch - pitch')
      = index' * pitch' - (index * pitch + pitch) := by ring
  rw [Clears, ← sub_nonneg, hgap, sub_nonneg]

theorem clears_same_iff (hpitch : 0 < pitch) (index index' : R) :
    Clears pitch index pitch index' ↔ index + 1 ≤ index' := by
  rw [Clears, sub_self, mul_zero, mul_nonneg_iff_of_pos_right hpitch, sub_sub, sub_nonneg]

theorem disjoint_cell_iff (hpitch : 0 < pitch) (hpitch' : 0 < pitch') (index index' : R) :
    Disjoint (cell pitch index) (cell pitch' index')
      ↔ Clears pitch index pitch' index' ∨ Clears pitch' index' pitch index := by
  have hlong : ¬ index * pitch + pitch ≤ index * pitch := by
    rw [not_le]
    exact lt_add_of_pos_right _ hpitch
  have hlong' : ¬ index' * pitch' + pitch' ≤ index' * pitch' := by
    rw [not_le]
    exact lt_add_of_pos_right _ hpitch'
  rw [cell, cell, Set.Ico_disjoint_Ico, min_le_iff, le_max_iff, le_max_iff, clears_iff, clears_iff,
    or_iff_right hlong, or_iff_left hlong']

/-! ### Two rulers at right angles -/

def tile (pitch index : R × R) : Set (R × R) := cell pitch.1 index.1 ×ˢ cell pitch.2 index.2

/-- Along one of the axes, in one of the two orders, the drift stays within the cells between. -/
def InStep (pitch index pitch' index' : R × R) : Prop :=
  (Clears pitch.1 index.1 pitch'.1 index'.1 ∨ Clears pitch'.1 index'.1 pitch.1 index.1)
    ∨ (Clears pitch.2 index.2 pitch'.2 index'.2 ∨ Clears pitch'.2 index'.2 pitch.2 index.2)

instance (pitch index pitch' index' : R × R) : Decidable (InStep pitch index pitch' index') :=
  inferInstanceAs (Decidable (_ ∨ _))

theorem disjoint_tile_iff {pitch pitch' : R × R} (hpitch : 0 < pitch.1 ∧ 0 < pitch.2)
    (hpitch' : 0 < pitch'.1 ∧ 0 < pitch'.2) (index index' : R × R) :
    Disjoint (tile pitch index) (tile pitch' index') ↔ InStep pitch index pitch' index' := by
  rw [tile, tile, Set.disjoint_prod, disjoint_cell_iff hpitch.1 hpitch'.1,
    disjoint_cell_iff hpitch.2 hpitch'.2]
  rfl

end Ruler
