import QuicView.Library.Execution
import QuicView.Proof.BitrateState

namespace QuicView.BitrateController

open Hysteresis Execution

/-- The verdicts on the frames recorded by the calls, oldest first, each as the measured bitrate
stood to the target right after its frame. -/
def verdicts (ctrl : BitrateController) : List Call → List Verdict
  | [] => []
  | .recordFrame timestampMs sizeBytes :: calls =>
      let next := ctrl.recordFrame timestampMs sizeBytes
      next.verdict :: next.verdicts calls
  | .setTargetBps target :: calls => (ctrl.setTargetBps target).verdicts calls

/-- The bounds on quality and counters, and that the increments stay within their words. -/
structure InRange (ctrl : BitrateController) : Prop where
  quality_dvd : 5 ∣ ctrl.quality.toNat
  quality_ge : 10 ≤ ctrl.quality.toNat
  quality_le : ctrl.quality.toNat ≤ 100
  overs_le : ctrl.overBudgetCount.toNat ≤ 2
  unders_le : ctrl.underBudgetCount.toNat ≤ 4
  exclusive : ctrl.overBudgetCount = 0 ∨ ctrl.underBudgetCount = 0
  quality_add : (ctrl.quality + 5).toNat = ctrl.quality.toNat + 5
  overs_add : (ctrl.overBudgetCount + 1).toNat = ctrl.overBudgetCount.toNat + 1
  unders_add : (ctrl.underBudgetCount + 1).toNat = ctrl.underBudgetCount.toNat + 1

/-- How a frame recorded between the two states moves the quality, given the verdicts on all frames
up to and with it. -/
structure MovesByRuns (ctrl next : BitrateController) (history : List Verdict) : Prop where
  next_le : next.quality.toNat ≤ ctrl.quality.toNat + 5
  le_next : ctrl.quality.toNat ≤ next.quality.toNat + 5
  fell : next.quality < ctrl.quality → List.replicate 3 .above <:+ history
  rose : ctrl.quality < next.quality → List.replicate 5 .below <:+ history

variable {ctrl : BitrateController} {s : State}

theorem verdicts_concat (call : Call) (calls : List Call) :
    ctrl.verdicts (calls ++ [call])
      = ctrl.verdicts calls ++ (run step ctrl calls).verdicts [call] := by
  induction calls generalizing ctrl with
  | nil => rfl
  | cons first calls ih =>
      cases first with
      | recordFrame timestampMs sizeBytes => exact congrArg (_ :: ·) ih
      | setTargetBps target => exact ih

theorem verdict_recordFrame (timestampMs sizeBytes : UInt64) :
    (ctrl.recordFrame timestampMs sizeBytes).verdict
      = (ctrl.slide timestampMs sizeBytes).verdict := by
  rw [recordFrame_eq]
  simp [verdict, measuredBps]

theorem Represents.recordFrame (h : Represents ctrl s) (timestampMs sizeBytes : UInt64) :
    Represents (ctrl.recordFrame timestampMs sizeBytes)
      (Hysteresis.step qualityLadder s (ctrl.recordFrame timestampMs sizeBytes).verdict) := by
  rw [verdict_recordFrame]
  exact Represents.adjustQuality (h.congr rfl rfl rfl)

theorem Represents.inRange (h : Represents ctrl s) (hexclusive : s.overs = 0 ∨ s.unders = 0) :
    InRange ctrl := by
  obtain ⟨hquality, hovers, hunders, hlevel, hoversLt, hundersLt⟩ := h
  simp only [qualityLadder] at hlevel hoversLt hundersLt
  constructor
  · exact ⟨2 + s.level, by rw [hquality]; omega⟩
  · omega
  · omega
  · omega
  · omega
  · rcases hexclusive with hzero | hzero
    · exact .inl (UInt32.toNat_inj.mp (hovers.trans hzero))
    · exact .inr (UInt32.toNat_inj.mp (hunders.trans hzero))
  · rw [UInt8.toNat_add, hquality]
    simp only [UInt8.reduceToNat]
    omega
  · rw [UInt32.toNat_add, UInt32.toNat_one]
    omega
  · rw [UInt32.toNat_add, UInt32.toNat_one]
    omega

theorem represents_run (targetBps : UInt64) (calls : List Call) :
    ∃ s, Represents (run step (new targetBps) calls) s
      ∧ Counts ((new targetBps).verdicts calls) s := by
  induction calls using List.reverseRec with
  | nil => exact ⟨_, represents_new targetBps, counts_of_zero _ _⟩
  | append_singleton calls call ih =>
      obtain ⟨s, hrepresents, hcounts⟩ := ih
      rw [run_concat, verdicts_concat]
      cases call with
      | recordFrame timestampMs sizeBytes =>
          exact ⟨_, hrepresents.recordFrame timestampMs sizeBytes, hcounts.step _⟩
      | setTargetBps target =>
          refine ⟨s, hrepresents.congr rfl rfl rfl, ?_⟩
          rwa [verdicts, verdicts, List.append_nil]

theorem Represents.movesByRuns {history : List Verdict} (h : Represents ctrl s)
    (hcounts : Counts history s) (timestampMs sizeBytes : UInt64) :
    MovesByRuns ctrl (ctrl.recordFrame timestampMs sizeBytes)
      (history ++ [(ctrl.recordFrame timestampMs sizeBytes).verdict]) := by
  have hnext := h.recordFrame timestampMs sizeBytes
  have hmove := level_step_le h.level_le (ctrl.recordFrame timestampMs sizeBytes).verdict
  constructor
  · rw [hnext.quality, h.quality]
    omega
  · rw [hnext.quality, h.quality]
    omega
  · intro hfell
    rw [UInt8.lt_iff_toNat_lt, hnext.quality, h.quality] at hfell
    exact hcounts.fell h.level_le h.overs_lt (by omega)
  · intro hrose
    rw [UInt8.lt_iff_toNat_lt, hnext.quality, h.quality] at hrose
    exact hcounts.rose h.unders_lt (by omega)

/-- **The controller stays in range.** After any calls the quality is a multiple of 5 between 10 and
100, the counters are at most 2 and 4 and not both positive, and none of the increments wraps. The
next frame moves the quality by 5 at most, after a full run of verdicts. -/
theorem controller_stays_in_range (targetBps : UInt64) (calls : List Call) :
    InRange (run step (new targetBps) calls)
      ∧ (∀ timestampMs sizeBytes,
          MovesByRuns (run step (new targetBps) calls)
            (run step (new targetBps) (calls ++ [.recordFrame timestampMs sizeBytes]))
            ((new targetBps).verdicts (calls ++ [.recordFrame timestampMs sizeBytes])))
      ∧ ∀ target, (run step (new targetBps) (calls ++ [.setTargetBps target])).quality
          = (run step (new targetBps) calls).quality := by
  obtain ⟨s, hrepresents, hcounts⟩ := represents_run targetBps calls
  refine ⟨hrepresents.inRange hcounts.exclusive, fun timestampMs sizeBytes => ?_, fun target => ?_⟩
  · rw [run_concat, verdicts_concat]
    exact hrepresents.movesByRuns hcounts timestampMs sizeBytes
  · rw [run_concat]
    rfl

end QuicView.BitrateController
