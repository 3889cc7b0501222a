import Mathlib.Data.Int.Basic
import Mathlib.Data.UInt
import Mathlib.Tactic.Ring

theorem UInt32.toInt_toInt32 (n : UInt32) : n.toInt32.toInt = (n.toNat : Int).bmod (2 ^ 32) :=
  BitVec.toInt_eq_toNat_bmod n.toBitVec

theorem Int.bmod_eq_of_fits {n : Int} (hfits : -2 ^ 31 ≤ n ∧ n < 2 ^ 31) : n.bmod (2 ^ 32) = n :=
  Int.bmod_eq_of_le hfits.1 hfits.2

theorem Int32.toInt_mul_toInt32 {a : Int32} {n : UInt32}
    (hfits : -2 ^ 31 ≤ a.toInt * n.toNat ∧ a.toInt * n.toNat < 2 ^ 31) :
    (a * n.toInt32).toInt = a.toInt * n.toNat := by
  rw [Int32.toInt_mul, UInt32.toInt_toInt32, Int.mul_bmod_bmod, Int.bmod_eq_of_fits hfits]

theorem Int32.toInt_add_toInt32 {a : Int32} {n : UInt32} (hlt : a.toInt + n.toNat < 2 ^ 31) :
    (a + n.toInt32).toInt = a.toInt + n.toNat := by
  have hle := a.le_toInt
  rw [Int32.toInt_add, UInt32.toInt_toInt32, Int.add_bmod_bmod, Int.bmod_eq_of_fits ⟨by omega, hlt⟩]

theorem Int32.toNat_sub_toUInt32 {a b : Int32} (hle : b.toInt ≤ a.toInt)
    (hlt : a.toInt - b.toInt < 2 ^ 31) : ((a - b).toUInt32.toNat : Int) = a.toInt - b.toInt := by
  have hsub : (a - b).toInt = a.toInt - b.toInt := by
    rw [Int32.toInt_sub, Int.bmod_eq_of_fits ⟨by omega, hlt⟩]
  have hnonneg : 0 ≤ a - b := by
    rw [Int32.le_iff_toInt_le, hsub, Int32.toInt_zero]
    omega
  rw [Int32.toNat_toUInt32_of_le hnonneg, Int32.toNatClampNeg, hsub]
  omega

theorem Int32.toInt_mul_div_toInt64 (a c : Int32) {b : Int32} (hpos : 0 < b.toInt) :
    (a.toInt64 * c.toInt64 / b.toInt64).toInt = (a.toInt * c.toInt).tdiv b.toInt := by
  have hne : b.toInt64 ≠ -1 := by
    intro heq
    have := congrArg Int64.toInt heq
    rw [Int32.toInt_toInt64, show (-1 : Int64).toInt = -1 by decide] at this
    omega
  have hfits : (a.toInt * c.toInt).natAbs ≤ 2 ^ 62 := by
    have ha := a.le_toInt
    have ha' := a.toInt_lt
    have hc := c.le_toInt
    have hc' := c.toInt_lt
    calc (a.toInt * c.toInt).natAbs = a.toInt.natAbs * c.toInt.natAbs := Int.natAbs_mul _ _
      _ ≤ 2 ^ 31 * 2 ^ 31 := Nat.mul_le_mul (by omega) (by omega)
      _ = 2 ^ 62 := by decide
  rw [Int64.toInt_div_of_ne_right _ _ hne, Int64.toInt_mul, Int32.toInt_toInt64,
    Int32.toInt_toInt64, Int32.toInt_toInt64, Int.bmod_eq_of_le (by omega) (by omega)]

theorem Int.tdiv_nonneg_le_iff {a b n : Int} (hpos : 0 < b) (hn : 0 ≤ n) :
    (0 ≤ a.tdiv b ∧ a.tdiv b ≤ n) ↔ -b < a ∧ a < (n + 1) * b := by
  have hbound : 0 < (n + 1) * b := Int.mul_pos (by omega) hpos
  rcases Int.le_total 0 a with hnonneg | hneg
  · have hquotient := Int.tdiv_nonneg hnonneg hpos.le
    rw [Int.tdiv_eq_ediv_of_nonneg hnonneg] at *
    rw [← Int.ediv_lt_iff_lt_mul hpos]
    omega
  · obtain ⟨m, rfl⟩ : ∃ m, a = -m := ⟨-a, by omega⟩
    have hquotient : 0 ≤ m / b := Int.ediv_nonneg (by omega) hpos.le
    have hlt : m / b < 1 ↔ m < 1 * b := Int.ediv_lt_iff_lt_mul hpos
    rw [Int.neg_tdiv, Int.tdiv_eq_ediv_of_nonneg (by omega)]
    omega

instance lawfulOrderLeftLeaningMaxInt32 : Std.LawfulOrderLeftLeaningMax Int32 where
  max_eq_left := by
    intro a b hle
    show (if a ≤ b then b else a) = a
    split
    next hge => exact Int32.le_antisymm hle hge
    next => rfl
  max_eq_right := by
    intro a b hnot
    show (if a ≤ b then b else a) = b
    exact if_pos (Int32.le_of_lt (Int32.not_le.mp hnot))
