import QuicView.Library.Execution
import QuicView.Library.SlidingWindow
import QuicView.Proof.BitrateState

namespace QuicView

open Execution BitrateController

def recentFrames (frames : List (UInt64 × UInt64)) : List (UInt64 × UInt64) :=
  SlidingWindow.recent (fun frame => frame.1.toNat) (fun stamp => stamp - 2000) frames

abbrev FramesInOrder (frames : List (UInt64 × UInt64)) : Prop :=
  SlidingWindow.InOrder (fun frame => frame.1.toNat) frames

theorem window_recordFrame_eq {sent : List (UInt64 × UInt64)} (ctrl : BitrateController)
    (hms : ctrl.windowMs = 2000)
    (hwindow : ctrl.window = recentFrames sent) (frame : UInt64 × UInt64)
    (hsorted : FramesInOrder (sent ++ [frame])) :
    (ctrl.recordFrame frame.1 frame.2).window = recentFrames (sent ++ [frame]) := by
  have hmono : Monotone fun stamp : Nat => stamp - 2000 :=
    fun _ _ hle => Nat.sub_le_sub_right hle 2000
  have hexpired : (fun old : UInt64 × UInt64 => decide (old.1 < frame.1.saturatingSub 2000))
      = fun old => decide (old.1.toNat < frame.1.toNat - 2000) := by
    have htwoSeconds : (2000 : UInt64).toNat = 2000 := by decide
    funext old
    apply decide_eq_decide.mpr
    rw [UInt64.lt_iff_toNat_lt, UInt64.toNat_saturatingSub, htwoSeconds]
  calc
    (ctrl.recordFrame frame.1 frame.2).window
        = (recentFrames sent ++ [frame]).dropWhile
            fun old => old.1 < frame.1.saturatingSub 2000 := by
      rw [recordFrame_eq, adjustQuality_window, slide, hwindow, hms]
    _ = SlidingWindow.push (fun frame => frame.1.toNat) (fun stamp => stamp - 2000)
          (recentFrames sent) frame := by
      rw [hexpired, SlidingWindow.push]
    _ = recentFrames (sent ++ [frame]) := SlidingWindow.push_recent hmono hsorted

def recordedFrames (calls : List Call) : List (UInt64 × UInt64) :=
  calls.filterMap fun
    | .recordFrame timestampMs sizeBytes => some (timestampMs, sizeBytes)
    | .setTargetBps _ => none

theorem recordedFrames_concat_recordFrame (calls : List Call) (frame : UInt64 × UInt64) :
    recordedFrames (calls ++ [.recordFrame frame.1 frame.2]) = recordedFrames calls ++ [frame] := by
  simp [recordedFrames]

theorem recordedFrames_concat_setTargetBps (calls : List Call) (target : UInt64) :
    recordedFrames (calls ++ [.setTargetBps target]) = recordedFrames calls := by
  simp [recordedFrames]

theorem window_run (targetBps : UInt64) (calls : List Call)
    (hsorted : FramesInOrder (recordedFrames calls)) :
    (run step (new targetBps) calls).windowMs = 2000
      ∧ (run step (new targetBps) calls).window = recentFrames (recordedFrames calls) := by
  induction calls using List.reverseRec with
  | nil => exact ⟨rfl, rfl⟩
  | append_singleton calls call ih =>
      rw [run_concat]
      cases call with
      | setTargetBps target =>
          rw [recordedFrames_concat_setTargetBps] at hsorted ⊢
          exact ih hsorted
      | recordFrame timestampMs sizeBytes =>
          rw [recordedFrames_concat_recordFrame calls (timestampMs, sizeBytes)] at hsorted ⊢
          obtain ⟨hms, hwindow⟩ := ih (List.pairwise_append.mp hsorted).1
          refine ⟨?_, window_recordFrame_eq _ hms hwindow (timestampMs, sizeBytes) hsorted⟩
          rw [step, recordFrame_eq, adjustQuality_windowMs]
          exact hms

theorem durationMs_pos (window : List (UInt64 × UInt64)) : 0 < durationMs window := by
  unfold durationMs
  split
  · omega
  · exact Nat.one_pos

theorem recentFrames_concat (frames : List (UInt64 × UInt64)) (last : UInt64 × UInt64) :
    recentFrames (frames ++ [last])
      = (frames ++ [last]).filter fun frame => last.1.saturatingSub 2000 ≤ frame.1 := by
  have htwoSeconds : (2000 : UInt64).toNat = 2000 := by decide
  rw [recentFrames, SlidingWindow.recent_append_singleton]
  apply List.filter_congr
  intro frame _
  apply decide_eq_decide.mpr
  rw [UInt64.le_iff_toNat_le, UInt64.toNat_saturatingSub, htwoSeconds]

theorem getLast?_recentFrames (frames : List (UInt64 × UInt64)) (last : UInt64 × UInt64) :
    (recentFrames (frames ++ [last])).getLast? = some last := by
  have hkept : last.1.saturatingSub 2000 ≤ last.1 := by
    rw [UInt64.le_iff_toNat_le, UInt64.toNat_saturatingSub]
    exact Nat.sub_le _ _
  have hself : [last].filter (fun frame => last.1.saturatingSub 2000 ≤ frame.1) = [last] :=
    List.filter_cons_of_pos (decide_eq_true hkept)
  rw [recentFrames_concat, List.filter_append, hself, List.getLast?_concat]

theorem durationMs_recentFrames_le (frames : List (UInt64 × UInt64)) :
    durationMs (recentFrames frames) ≤ 2000 := by
  rcases List.eq_nil_or_concat' frames with rfl | ⟨frames, last, rfl⟩
  · decide
  · unfold durationMs
    rw [getLast?_recentFrames]
    cases hfirst : (recentFrames (frames ++ [last])).head? with
    | none => simp
    | some first =>
        have hmem := List.mem_of_head? hfirst
        rw [recentFrames, SlidingWindow.recent_append_singleton] at hmem
        have hage : last.1.toNat - 2000 ≤ first.1.toNat := by
          simpa using (List.mem_filter.mp hmem).2
        simp only
        omega

def measuredOver (first last : UInt64 × UInt64) : UInt64 := max (last.1.saturatingSub first.1) 1

theorem measuredBps_eq {ctrl : BitrateController} {first last : UInt64 × UInt64}
    (hlen : 2 ≤ ctrl.window.length) (hfirst : ctrl.window.head? = some first)
    (hlast : ctrl.window.getLast? = some last) :
    ctrl.measuredBps
      = (ctrl.window.map Prod.snd).sum * 8 * 1000 / measuredOver first last := by
  have hne : ctrl.window ≠ [] := List.ne_nil_of_length_pos (by omega)
  have hhead : ctrl.window.head hne = first :=
    Option.some.inj ((List.head?_eq_some_head hne).symm.trans hfirst)
  have hback : ctrl.window.getLast hne = last :=
    Option.some.inj ((List.getLast?_eq_some_getLast hne).symm.trans hlast)
  rw [measuredBps, dif_neg (Nat.not_lt.mpr hlen)]
  dsimp only
  rw [hhead, hback]
  rfl

theorem measuredOver_pos (first last : UInt64 × UInt64) : 0 < measuredOver first last := by
  rw [UInt64.lt_iff_toNat_lt, measuredOver, UInt64.toNat_max]
  exact lt_max_of_lt_right Nat.one_pos

theorem measuredOver_le {first last : UInt64 × UInt64}
    (hrecent : last.1.saturatingSub 2000 ≤ first.1) : measuredOver first last ≤ 2000 := by
  have htwoSeconds : (2000 : UInt64).toNat = 2000 := by decide
  rw [UInt64.le_iff_toNat_le, UInt64.toNat_saturatingSub, htwoSeconds] at hrecent
  rw [UInt64.le_iff_toNat_le, measuredOver, UInt64.toNat_max, UInt64.toNat_saturatingSub,
    htwoSeconds, UInt64.toNat_one]
  omega

/-- **The window holds exactly the recent frames.** After frames recorded in order it is the part of
them not older than two seconds, in their order, measured over at least one millisecond and at most
two seconds. -/
theorem window_holds_recent_frames (targetBps : UInt64) (calls : List Call)
    (frames : List (UInt64 × UInt64)) (last : UInt64 × UInt64)
    (hframes : recordedFrames calls = frames ++ [last])
    (hsorted : FramesInOrder (frames ++ [last])) :
    let ctrl := run step (new targetBps) calls
    ctrl.window = (frames ++ [last]).filter (fun frame => last.1.saturatingSub 2000 ≤ frame.1)
      ∧ ctrl.window.getLast? = some last
      ∧ ∃ first, ctrl.window.head? = some first
          ∧ 0 < measuredOver first last ∧ measuredOver first last ≤ 2000
          ∧ (2 ≤ ctrl.window.length → ctrl.measuredBps
              = (ctrl.window.map Prod.snd).sum * 8 * 1000 / measuredOver first last) := by
  intro ctrl
  have hwindow : ctrl.window = recentFrames (frames ++ [last]) := by
    have hrun := (window_run targetBps calls (hframes ▸ hsorted)).2
    rwa [hframes] at hrun
  have hlast : ctrl.window.getLast? = some last := by rw [hwindow, getLast?_recentFrames]
  refine ⟨hwindow.trans (recentFrames_concat frames last), hlast, ?_⟩
  have hne : ctrl.window ≠ [] := List.ne_nil_of_mem (List.mem_of_getLast? hlast)
  refine ⟨ctrl.window.head hne, List.head?_eq_some_head hne, measuredOver_pos _ _, ?_, ?_⟩
  · have hmem : ctrl.window.head hne ∈ recentFrames (frames ++ [last]) :=
      hwindow ▸ List.head_mem hne
    rw [recentFrames_concat] at hmem
    exact measuredOver_le (of_decide_eq_true (List.mem_filter.mp hmem).2)
  · exact fun hlen => measuredBps_eq hlen (List.head?_eq_some_head hne) hlast

theorem window_holds_recent_frames_same_time :
    (run step (new 5000) [.recordFrame 0 100, .recordFrame 3000 200, .recordFrame 3000 300]).window
      = [(3000, 200), (3000, 300)] :=
  (window_holds_recent_frames 5000 _ [(0, 100), (3000, 200)] (3000, 300) rfl (by decide)).1

end QuicView
