import Mathlib.Data.UInt

def UInt64.saturatingSub (a b : UInt64) : UInt64 := if b ≤ a then a - b else 0

def UInt8.saturatingSub (a b : UInt8) : UInt8 := if b ≤ a then a - b else 0

@[simp]
theorem UInt64.toNat_saturatingSub (a b : UInt64) :
    (a.saturatingSub b).toNat = a.toNat - b.toNat := by
  unfold saturatingSub
  split
  · exact UInt64.toNat_sub_of_le _ _ ‹_›
  · have hlt : a.toNat < b.toNat := by rwa [UInt64.le_iff_toNat_le, not_le] at *
    rw [Nat.sub_eq_zero_of_le hlt.le]
    rfl

@[simp]
theorem UInt8.toNat_saturatingSub (a b : UInt8) :
    (a.saturatingSub b).toNat = a.toNat - b.toNat := by
  unfold saturatingSub
  split
  · exact UInt8.toNat_sub_of_le _ _ ‹_›
  · have hlt : a.toNat < b.toNat := by rwa [UInt8.le_iff_toNat_le, not_le] at *
    rw [Nat.sub_eq_zero_of_le hlt.le]
    rfl
