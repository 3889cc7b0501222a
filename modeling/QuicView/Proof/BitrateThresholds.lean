import QuicView.Library.Checked
import QuicView.Proof.BitrateState

namespace QuicView.BitrateController

open Checked

theorem window_ne_nil {ctrl : BitrateController} (hlen : ¬ ctrl.window.length < 2) :
    ctrl.window ≠ [] :=
  fun hnil => hlen (hnil ▸ Nat.zero_lt_two)

/-- `measuredBps` with its products checked. -/
def measuredBpsChecked (ctrl : BitrateController) : Option UInt64 :=
  if hlen : ctrl.window.length < 2 then some 0
  else do
    let firstTs := (ctrl.window.head (window_ne_nil hlen)).1
    let lastTs := (ctrl.window.getLast (window_ne_nil hlen)).1
    let durationMs := max (lastTs.saturatingSub firstTs) 1
    let totalBytes := (ctrl.window.map fun entry => entry.2).sum
    let bits ← totalBytes.checkedMul 8
    let scaled ← bits.checkedMul 1000
    some (scaled / durationMs)

def shouldSkipFrameChecked (ctrl : BitrateController) : Option Bool := do
  let measured ← ctrl.measuredBpsChecked
  let thrice ← ctrl.targetBps.checkedMul 3
  some (measured > thrice / 2)

def adjustQualityChecked (ctrl : BitrateController) : Option BitrateController := do
  let measured ← ctrl.measuredBpsChecked
  if measured > ctrl.targetBps then
    let ctrl := { ctrl with overBudgetCount := ctrl.overBudgetCount + 1, underBudgetCount := 0 }
    if ctrl.overBudgetCount ≥ 3 then
      some { ctrl with quality := max (ctrl.quality.saturatingSub 5) 10, overBudgetCount := 0 }
    else some ctrl
  else
    let thrice ← ctrl.targetBps.checkedMul 3
    if measured < thrice / 4 then
      let ctrl := { ctrl with underBudgetCount := ctrl.underBudgetCount + 1, overBudgetCount := 0 }
      if ctrl.underBudgetCount ≥ 5 then
        some { ctrl with quality := min (ctrl.quality + 5) 100, underBudgetCount := 0 }
      else some ctrl
    else some { ctrl with overBudgetCount := 0, underBudgetCount := 0 }

/-- The thresholds are those of exact arithmetic, and no product on the way to them overflows. -/
structure ThresholdsExact (ctrl : BitrateController) : Prop where
  skips_iff : ctrl.shouldSkipFrame = true ↔ 3 * ctrl.targetBps.toNat < 2 * ctrl.measuredBps.toNat
  skips_over : ctrl.shouldSkipFrame = true → ctrl.targetBps < ctrl.measuredBps
  skip_products : ctrl.shouldSkipFrameChecked = some ctrl.shouldSkipFrame
  adjust_products : ctrl.adjustQualityChecked = some ctrl.adjustQuality

variable {ctrl : BitrateController}

theorem measuredBpsChecked_eq (hfits : totalBytes ctrl.window * 8000 < 2 ^ 64) :
    ctrl.measuredBpsChecked = some ctrl.measuredBps := by
  have height : totalBytes ctrl.window * 8 < 2 ^ 64 := by omega
  have hthousand : totalBytes ctrl.window * 8 * 1000 < 2 ^ 64 := by
    rwa [Nat.mul_assoc]
  have hsum : (ctrl.window.map Prod.snd).sum.toNat = totalBytes ctrl.window := by
    rw [toNat_sum_sizes]
    exact Nat.mod_eq_of_lt (by omega)
  have hbits : ((ctrl.window.map Prod.snd).sum * 8).toNat = totalBytes ctrl.window * 8 := by
    rw [UInt64.toNat_mul, hsum]
    exact Nat.mod_eq_of_lt height
  have hfirst : (ctrl.window.map Prod.snd).sum.checkedMul 8
      = some ((ctrl.window.map Prod.snd).sum * 8) := by
    apply if_pos
    rw [hsum]
    exact height
  have hsecond : ((ctrl.window.map Prod.snd).sum * 8).checkedMul 1000
      = some ((ctrl.window.map Prod.snd).sum * 8 * 1000) := by
    apply if_pos
    rw [hbits]
    exact hthousand
  unfold measuredBpsChecked measuredBps
  by_cases hlen : ctrl.window.length < 2
  · rw [dif_pos hlen, dif_pos hlen]
  · rw [dif_neg hlen, dif_neg hlen]
    simp only [hfirst, hsecond, Option.bind_eq_bind, Option.bind_some]

theorem computes_shouldSkipFrame (hfits : totalBytes ctrl.window * 8000 < 2 ^ 64) :
    Computes ctrl.shouldSkipFrameChecked (ctrl.targetBps.toNat * 3 < 2 ^ 64)
      ctrl.shouldSkipFrame := by
  rw [shouldSkipFrameChecked, measuredBpsChecked_eq hfits]
  exact Computes.ite.map fun thrice => decide (ctrl.measuredBps > thrice / 2)

theorem adjustQualityChecked_eq (hfits : totalBytes ctrl.window * 8000 < 2 ^ 64)
    (htarget : ctrl.targetBps.toNat * 3 < 2 ^ 64) :
    ctrl.adjustQualityChecked = some ctrl.adjustQuality := by
  have hthrice : ctrl.targetBps.checkedMul 3 = some (ctrl.targetBps * 3) := if_pos htarget
  rw [adjustQualityChecked, measuredBpsChecked_eq hfits, adjustQuality]
  simp only [hthrice, Option.bind_eq_bind, Option.bind_some]
  split_ifs <;> rfl

/-- **When the thresholds are exact.** As long as the bits of the window fit a word, they are so for
the targets of which three times fit a word, and no others. -/
theorem thresholds_exact_iff (ctrl : BitrateController)
    (hfits : totalBytes ctrl.window * 8000 < 2 ^ 64) :
    ThresholdsExact ctrl ↔ 3 * ctrl.targetBps.toNat < 2 ^ 64 := by
  rw [Nat.mul_comm]
  constructor
  · intro hexact
    exact (computes_shouldSkipFrame hfits).eq_some_iff.mp hexact.skip_products
  · intro htarget
    have hthreshold : (ctrl.targetBps * 3 / 2).toNat = ctrl.targetBps.toNat * 3 / 2 := by
      rw [UInt64.toNat_div, UInt64.toNat_mul]
      exact congrArg (· / 2) (Nat.mod_eq_of_lt htarget)
    have hskips : ctrl.shouldSkipFrame = true
        ↔ ctrl.targetBps.toNat * 3 / 2 < ctrl.measuredBps.toNat := by
      rw [shouldSkipFrame, decide_eq_true_iff, gt_iff_lt, UInt64.lt_iff_toNat_lt, hthreshold]
    refine ⟨?_, ?_, (computes_shouldSkipFrame hfits).eq_some htarget,
      adjustQualityChecked_eq hfits htarget⟩
    · rw [hskips]
      omega
    · rw [hskips, UInt64.lt_iff_toNat_lt]
      omega

theorem thresholds_exact_iff_ten_megabits :
    ThresholdsExact (((new 10000000).recordFrame 0 50000).recordFrame 33 50000) :=
  (thresholds_exact_iff _ (by decide)).mpr (by decide)

theorem skips_far_below_target :
    ¬ ∀ ctrl : BitrateController, totalBytes ctrl.window * 8000 < 2 ^ 64 →
        ThresholdsExact ctrl := by
  intro hall
  have hexact := hall (((new 6148914691236517206).recordFrame 0 1000).recordFrame 33 1000)
    (by decide)
  exact absurd (hexact.skips_iff.mp (by decide)) (by decide)

end QuicView.BitrateController
