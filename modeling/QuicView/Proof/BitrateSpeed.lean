import QuicView.Proof.BitrateRange
import QuicView.Proof.BitrateWindow

namespace QuicView.BitrateController

open Hysteresis Execution

def afterFrames (ctrl : BitrateController) : List Call → List BitrateController
  | [] => []
  | .recordFrame timestampMs sizeBytes :: calls =>
      let next := ctrl.recordFrame timestampMs sizeBytes
      next :: next.afterFrames calls
  | .setTargetBps target :: calls => (ctrl.setTargetBps target).afterFrames calls

abbrev MeasuredOver (ctrl : BitrateController) : Prop := ctrl.targetBps < ctrl.measuredBps

abbrev MeasuredUnder (ctrl : BitrateController) : Prop :=
  3 * ctrl.targetBps.toNat < 2 ^ 64
    ∧ ctrl.measuredBps.toNat < 3 * ctrl.targetBps.toNat / 4

variable {ctrl : BitrateController} {s : State}

theorem verdicts_eq_map (calls : List Call) :
    ctrl.verdicts calls = (ctrl.afterFrames calls).map verdict := by
  induction calls generalizing ctrl with
  | nil => rfl
  | cons call calls ih =>
      cases call with
      | recordFrame timestampMs sizeBytes => exact congrArg (_ :: ·) ih
      | setTargetBps target => exact ih

theorem length_afterFrames (calls : List Call) :
    (ctrl.afterFrames calls).length = (recordedFrames calls).length := by
  induction calls generalizing ctrl with
  | nil => rfl
  | cons call calls ih =>
      cases call with
      | recordFrame timestampMs sizeBytes => exact congrArg (· + 1) ih
      | setTargetBps target => exact ih

theorem verdicts_eq_replicate {calls : List Call} {same : Verdict}
    (hsame : ∀ next ∈ ctrl.afterFrames calls, next.verdict = same) :
    ctrl.verdicts calls = List.replicate (recordedFrames calls).length same := by
  rw [verdicts_eq_map, List.eq_replicate_iff, List.length_map, length_afterFrames]
  exact ⟨rfl, List.forall_mem_map.mpr hsame⟩

theorem MeasuredOver.verdict (h : ctrl.MeasuredOver) : ctrl.verdict = .above := if_pos h

theorem MeasuredUnder.verdict (h : ctrl.MeasuredUnder) : ctrl.verdict = .below := by
  obtain ⟨hfits, hlow⟩ := h
  have hthreshold : (ctrl.targetBps * 3 / 4).toNat = 3 * ctrl.targetBps.toNat / 4 := by
    rw [UInt64.toNat_div, UInt64.toNat_mul, Nat.mul_comm]
    exact congrArg (· / 4) (Nat.mod_eq_of_lt hfits)
  have hnotAbove : ¬ ctrl.measuredBps > ctrl.targetBps := by
    rw [gt_iff_lt, UInt64.lt_iff_toNat_lt]
    omega
  have hbelow : ctrl.measuredBps < ctrl.targetBps * 3 / 4 := by
    rwa [UInt64.lt_iff_toNat_lt, hthreshold]
  rw [BitrateController.verdict, if_neg hnotAbove, if_pos hbelow]

theorem Represents.run (h : Represents ctrl s) (calls : List Call) :
    Represents (Execution.run step ctrl calls)
      ((ctrl.verdicts calls).foldl (Hysteresis.step qualityLadder) s) := by
  induction calls generalizing ctrl s with
  | nil => exact h
  | cons call calls ih =>
      cases call with
      | recordFrame timestampMs sizeBytes => exact ih (h.recordFrame timestampMs sizeBytes)
      | setTargetBps target => exact ih (h.congr rfl rfl rfl)

/-- **How fast the quality adapts.** From any reachable state, frames over the target lower the
quality by five for every three of them, and frames below three quarters of it raise it by five for
every five. The counts at the start are counted in. -/
theorem speed_of_adaptation (targetBps : UInt64) (before after : List Call) :
    let ctrl := run step (new targetBps) before
    let next := run step ctrl after
    let n := (recordedFrames after).length
    ((∀ frame ∈ ctrl.afterFrames after, frame.MeasuredOver) →
        next.quality.toNat
            = max 10 (ctrl.quality.toNat - 5 * ((ctrl.overBudgetCount.toNat + n) / 3))
          ∧ next.overBudgetCount.toNat = (ctrl.overBudgetCount.toNat + n) % 3)
      ∧ ((∀ frame ∈ ctrl.afterFrames after, frame.MeasuredUnder) →
        next.quality.toNat
            = min 100 (ctrl.quality.toNat + 5 * ((ctrl.underBudgetCount.toNat + n) / 5))
          ∧ next.underBudgetCount.toNat = (ctrl.underBudgetCount.toNat + n) % 5) := by
  intro ctrl next n
  obtain ⟨s, hrepresents, -⟩ := represents_run targetBps before
  have hnext := hrepresents.run after
  have hquality : ctrl.quality.toNat = 10 + 5 * s.level := hrepresents.quality
  have htop : s.level ≤ 18 := hrepresents.level_le
  refine ⟨fun hover => ?_, fun hunder => ?_⟩
  · rw [verdicts_eq_replicate fun frame hmem => (hover frame hmem).verdict] at hnext
    obtain ⟨hlevel, hovers⟩ := foldl_above (by decide) hrepresents.overs_lt n
    rw [hnext.quality, hnext.overs, hlevel, hovers, hquality, hrepresents.overs]
    refine ⟨?_, rfl⟩
    show 10 + 5 * (s.level - (s.overs + n) / 3) = _
    omega
  · rw [verdicts_eq_replicate fun frame hmem => (hunder frame hmem).verdict] at hnext
    obtain ⟨hlevel, hunders⟩ := foldl_below (by decide) hrepresents.unders_lt htop n
    rw [hnext.quality, hnext.unders, hlevel, hunders, hquality, hrepresents.unders]
    refine ⟨?_, rfl⟩
    show 10 + 5 * min (s.level + (s.unders + n) / 5) 18 = _
    omega

theorem speed_of_adaptation_three :
    let ctrl := run step (new 1000000) [.recordFrame 0 100000]
    (run step ctrl [.recordFrame 33 100000, .recordFrame 66 100000, .recordFrame 99 100000]).quality
        = 75
      ∧ (∀ frame ∈ ctrl.afterFrames [.recordFrame 33 100000, .recordFrame 66 100000,
          .recordFrame 99 100000], frame.MeasuredOver) := by
  intro ctrl
  have hover : ∀ frame ∈ ctrl.afterFrames [.recordFrame 33 100000, .recordFrame 66 100000,
      .recordFrame 99 100000], frame.MeasuredOver := by decide
  have hspeed := (speed_of_adaptation 1000000 [.recordFrame 0 100000] _).1 hover
  exact ⟨UInt8.toNat_inj.mp hspeed.1, hover⟩

end QuicView.BitrateController
