import QuicView.Proof.BitrateRange
import QuicView.Proof.BitrateWindow

/-!
# Raising the quality without room

A window of several frames is measured over two seconds at most, so a low measurement means that its
bytes fit into two seconds of the target. Two windows are not measured: a frame alone in its window
counts as no traffic at all, and the bits of an enormous window wrap.
-/

namespace QuicView

open Hysteresis Execution BitrateController

def riseThreshold (targetBps : UInt64) : Nat := targetBps.toNat * 3 % 2 ^ 64 / 4

/-- When the frame raises the quality, the bytes of the last two seconds fit the target. -/
def RaisesWithRoom (targetBps : UInt64) (before : List Call) (frame : UInt64 × UInt64) : Prop :=
  (run step (new targetBps) before).quality
      < ((run step (new targetBps) before).recordFrame frame.1 frame.2).quality →
    8 * 1000 * totalBytes (recentFrames (recordedFrames before ++ [frame]))
      ≤ (run step (new targetBps) before).targetBps.toNat * 2000

/-- A frame alone in its window takes at most a quarter of the target; bits that do not fit a word
still measure enough, or the bytes fit. -/
structure RoomWhereUnmeasured (targetBps : UInt64) (window : List (UInt64 × UInt64)) : Prop where
  alone : window.length < 2 →
    riseThreshold targetBps = 0 ∨ 4 * totalBytes window ≤ targetBps.toNat
  wrapped : 2 ≤ window.length → 2 ^ 64 ≤ totalBytes window * 8000 →
    riseThreshold targetBps ≤ totalBytes window * 8000 % 2 ^ 64 / durationMs window
      ∨ 4 * totalBytes window ≤ targetBps.toNat

/-- A frame that finds a rise due, four measurements below already counted and the quality not at
its cap, finds room where its window is not measured. -/
def RoomWhenDue (targetBps : UInt64) (before : List Call) (frame : UInt64 × UInt64) : Prop :=
  (run step (new targetBps) before).underBudgetCount = 4 →
  (run step (new targetBps) before).quality < 100 →
  RoomWhereUnmeasured (run step (new targetBps) before).targetBps
    (recentFrames (recordedFrames before ++ [frame]))

theorem riseThreshold_le (targetBps : UInt64) : riseThreshold targetBps ≤ targetBps.toNat := by
  unfold riseThreshold
  have hwrap := Nat.mod_le (targetBps.toNat * 3) (2 ^ 64)
  omega

theorem verdict_eq_below_iff (ctrl : BitrateController) :
    ctrl.verdict = .below ↔ ctrl.measuredBps.toNat < riseThreshold ctrl.targetBps := by
  have hthreshold : (ctrl.targetBps * 3 / 4).toNat = riseThreshold ctrl.targetBps := by
    rw [UInt64.toNat_div, UInt64.toNat_mul]
    rfl
  have htarget := riseThreshold_le ctrl.targetBps
  unfold verdict
  simp only [gt_iff_lt, UInt64.lt_iff_toNat_lt, hthreshold]
  split
  · exact iff_of_false nofun (by omega)
  · split
    · exact iff_of_true rfl ‹_›
    · exact iff_of_false nofun ‹_›

theorem BitrateController.Represents.quality_lt_recordFrame_iff {ctrl : BitrateController}
    {s : State} (h : Represents ctrl s) (timestampMs sizeBytes : UInt64) :
    ctrl.quality < (ctrl.recordFrame timestampMs sizeBytes).quality
      ↔ (ctrl.recordFrame timestampMs sizeBytes).verdict = .below
        ∧ ctrl.underBudgetCount = 4 ∧ ctrl.quality < 100 := by
  have hnext := (h.recordFrame timestampMs sizeBytes).quality
  have hcount : ctrl.underBudgetCount = 4 ↔ qualityLadder.riseAfter ≤ s.unders + 1 := by
    rw [← UInt32.toNat_inj, h.unders]
    have hlt := h.unders_lt
    simp only [qualityLadder] at hlt ⊢
    exact ⟨fun heq => heq ▸ Nat.le_refl 5, fun hle => by show s.unders = 4; omega⟩
  have hcap : ctrl.quality < 100 ↔ s.level < qualityLadder.top := by
    rw [UInt8.lt_iff_toNat_lt, h.quality]
    simp only [qualityLadder, UInt8.reduceToNat]
    omega
  rw [hcount, hcap, ← level_lt_step_iff, UInt8.lt_iff_toNat_lt, hnext, h.quality]
  omega

theorem roomWhereUnmeasured_iff {targetBps : UInt64} {window : List (UInt64 × UInt64)}
    (hduration : durationMs window ≤ 2000) :
    RoomWhereUnmeasured targetBps window
      ↔ ((if window.length < 2 then 0
          else totalBytes window * 8000 % 2 ^ 64 / durationMs window) < riseThreshold targetBps →
        8 * 1000 * totalBytes window ≤ targetBps.toNat * 2000) := by
  have hthreshold := riseThreshold_le targetBps
  by_cases hlen : window.length < 2
  · rw [if_pos hlen]
    constructor
    · intro hroom hpos
      have halone := hroom.alone hlen
      omega
    · intro hfits
      exact ⟨fun _ => by omega, fun hlong => absurd hlong (Nat.not_le_of_lt hlen)⟩
  · rw [if_neg hlen]
    by_cases hwraps : 2 ^ 64 ≤ totalBytes window * 8000
    · constructor
      · intro hroom hlow
        have hwrapped := hroom.wrapped (Nat.le_of_not_lt hlen) hwraps
        omega
      · intro hfits
        refine ⟨fun hshort => absurd hshort hlen, fun _ _ => ?_⟩
        by_cases hlow : totalBytes window * 8000 % 2 ^ 64 / durationMs window
            < riseThreshold targetBps
        · have hroom := hfits hlow
          omega
        · exact .inl (Nat.le_of_not_lt hlow)
    · refine iff_of_true ⟨fun hshort => absurd hshort hlen, fun _ hbig => absurd hbig hwraps⟩ ?_
      intro hlow
      rw [Nat.mod_eq_of_lt (Nat.lt_of_not_le hwraps),
        Nat.div_lt_iff_lt_mul (durationMs_pos window)] at hlow
      calc
        8 * 1000 * totalBytes window = totalBytes window * 8000 := by omega
        _ ≤ riseThreshold targetBps * durationMs window := hlow.le
        _ ≤ targetBps.toNat * 2000 := Nat.mul_le_mul hthreshold hduration

/-! ### Along a run -/

theorem raisesWithRoom_iff (targetBps : UInt64) (before : List Call) (frame : UInt64 × UInt64)
    (hsorted : FramesInOrder (recordedFrames before ++ [frame])) :
    RaisesWithRoom targetBps before frame ↔ RoomWhenDue targetBps before frame := by
  obtain ⟨s, hrepresents, _⟩ := represents_run targetBps before
  obtain ⟨hms, hwindow⟩ := window_run targetBps before (List.pairwise_append.mp hsorted).1
  have hnext := window_recordFrame_eq _ hms hwindow frame hsorted
  have htarget : ((run step (new targetBps) before).recordFrame frame.1 frame.2).targetBps
      = (run step (new targetBps) before).targetBps := by
    rw [recordFrame_eq, adjustQuality_targetBps]
    rfl
  unfold RaisesWithRoom RoomWhenDue
  rw [hrepresents.quality_lt_recordFrame_iff, verdict_eq_below_iff, toNat_measuredBps, hnext,
    htarget, roomWhereUnmeasured_iff (durationMs_recentFrames_le _)]
  constructor
  · intro hroom hdue hcap hlow
    exact hroom ⟨hlow, hdue, hcap⟩
  · rintro hroom ⟨hlow, hdue, hcap⟩
    exact hroom hdue hcap hlow

/-- **When the quality is raised only with room.** In a run whose frames are recorded in order,
every frame that raises the quality leaves room exactly if every frame that finds a rise due finds
room where its window is not measured. -/
theorem raises_with_room_iff_room_when_due (targetBps : UInt64) (calls : List Call)
    (hsorted : FramesInOrder (recordedFrames calls)) :
    (∀ before timestampMs sizeBytes, before ++ [.recordFrame timestampMs sizeBytes] <+: calls →
        RaisesWithRoom targetBps before (timestampMs, sizeBytes))
      ↔ ∀ before timestampMs sizeBytes, before ++ [.recordFrame timestampMs sizeBytes] <+: calls →
        RoomWhenDue targetBps before (timestampMs, sizeBytes) := by
  refine forall_congr' fun before => forall_congr' fun timestampMs => forall_congr' fun sizeBytes =>
    imp_congr_right fun hbefore => raisesWithRoom_iff targetBps before (timestampMs, sizeBytes) ?_
  obtain ⟨after, rfl⟩ := hbefore
  rw [recordedFrames, List.filterMap_append] at hsorted
  have hfirst := (List.pairwise_append.mp hsorted).1
  rwa [← recordedFrames, recordedFrames_concat_recordFrame before (timestampMs, sizeBytes)]
    at hfirst

theorem raises_with_room_iff_room_when_due_five :
    let four : List Call :=
      [.recordFrame 0 100, .recordFrame 33 100, .recordFrame 66 100, .recordFrame 99 100]
    let calls := four ++ [.recordFrame 132 100]
    (run step (new 1000000) four).underBudgetCount = 4
      ∧ (run step (new 1000000) four).quality < (run step (new 1000000) calls).quality
      ∧ ((∀ before timestampMs sizeBytes,
            before ++ [.recordFrame timestampMs sizeBytes] <+: calls →
              RaisesWithRoom 1000000 before (timestampMs, sizeBytes))
        ↔ ∀ before timestampMs sizeBytes,
            before ++ [.recordFrame timestampMs sizeBytes] <+: calls →
              RoomWhenDue 1000000 before (timestampMs, sizeBytes)) :=
  ⟨by decide, by decide, raises_with_room_iff_room_when_due 1000000 _ (by decide)⟩

/-- Raw frames of 1920 by 1080 pixels three seconds apart, each alone in its window, raise the
quality towards a target of ten megabits. -/
theorem raised_by_frames_alone :
    ¬ ∀ (targetBps : UInt64) (calls : List Call), FramesInOrder (recordedFrames calls) →
        ∀ before timestampMs sizeBytes, before ++ [.recordFrame timestampMs sizeBytes] <+: calls →
          RaisesWithRoom targetBps before (timestampMs, sizeBytes) := by
  intro hall
  let before : List Call := [.recordFrame 3000 8294400, .recordFrame 6000 8294400,
    .recordFrame 9000 8294400, .recordFrame 12000 8294400]
  have hroom := hall 10000000 (before ++ [.recordFrame 15000 8294400]) (by decide) before 15000
    8294400 List.prefix_rfl
  have hraised : (run step (new 10000000) before).quality
      < ((run step (new 10000000) before).recordFrame 15000 8294400).quality := by decide
  exact absurd (hroom hraised) (by decide)

end QuicView
