import QuicView.Proof.FrameSkipping

/-!
# Skipping bounds the rate

What a sender has sent within two seconds is what a window below the threshold holds and one frame
more. A window with a single frame measures nothing, which is why its bound is the size of a frame.
-/

namespace QuicView.RateLimit

open Execution BitrateController

inductive Call where
  | offer (frame : UInt64 × UInt64)
  | setTargetBps (target : UInt64)
  deriving DecidableEq, Repr

structure State where
  controller : BitrateController
  sent : List (UInt64 × UInt64)

def new (targetBps : UInt64) : State := ⟨.new targetBps, []⟩

/-- The documented use: the controller is asked before a frame, and told of each frame sent. -/
def step (state : State) : Call → State
  | .offer frame =>
      if state.controller.shouldSkipFrame then state
      else ⟨state.controller.recordFrame frame.1 frame.2, state.sent ++ [frame]⟩
  | .setTargetBps target => { state with controller := state.controller.setTargetBps target }

def offered (calls : List Call) : List (UInt64 × UInt64) :=
  calls.filterMap fun
    | .offer frame => some frame
    | .setTargetBps _ => none

def Call.Within (ceiling maxSize : Nat) : Call → Prop
  | .offer frame => frame.2.toNat ≤ maxSize
  | .setTargetBps target => target.toNat ≤ ceiling

instance (ceiling maxSize : Nat) (call : Call) : Decidable (call.Within ceiling maxSize) :=
  match call with
  | .offer frame => inferInstanceAs (Decidable (frame.2.toNat ≤ maxSize))
  | .setTargetBps target => inferInstanceAs (Decidable (target.toNat ≤ ceiling))

/-- The bytes of two seconds at one and a half times the ceiling, or of one frame if that is
more. -/
def calmBytes (ceiling maxSize : Nat) : Nat := max (3 * ceiling / 8) maxSize

/-! ### Sizes of windows -/

theorem totalBytes_append (frames more : List (UInt64 × UInt64)) :
    totalBytes (frames ++ more) = totalBytes frames + totalBytes more := by
  rw [totalBytes, List.map_append, List.sum_append]
  rfl

theorem totalBytes_le_of_sublist {frames frames' : List (UInt64 × UInt64)}
    (hsublist : frames.Sublist frames') : totalBytes frames ≤ totalBytes frames' := by
  induction hsublist with
  | slnil => exact Nat.le_refl 0
  | cons frame _ ih => exact ih.trans (Nat.le_add_left _ _)
  | cons_cons frame _ ih => exact Nat.add_le_add_left ih _

theorem totalBytes_recentFrames_concat_le {sent : List (UInt64 × UInt64)}
    {frame : UInt64 × UInt64} (hsorted : FramesInOrder (sent ++ [frame])) :
    totalBytes (recentFrames (sent ++ [frame]))
      ≤ totalBytes (recentFrames sent) + frame.2.toNat := by
  have hmono : Monotone fun stamp : Nat => stamp - 2000 :=
    fun _ _ hle => Nat.sub_le_sub_right hle 2000
  have hpush : recentFrames (sent ++ [frame])
      = SlidingWindow.push (fun frame => frame.1.toNat) (fun stamp => stamp - 2000)
        (recentFrames sent) frame := (SlidingWindow.push_recent hmono hsorted).symm
  have hkept : (recentFrames (sent ++ [frame])).Sublist (recentFrames sent ++ [frame]) := by
    rw [hpush]
    exact List.dropWhile_sublist _
  calc totalBytes (recentFrames (sent ++ [frame]))
      ≤ totalBytes (recentFrames sent ++ [frame]) := totalBytes_le_of_sublist hkept
    _ = totalBytes (recentFrames sent) + frame.2.toNat := totalBytes_append _ _

theorem totalBytes_le_calmBytes {controller : BitrateController} {ceiling maxSize : Nat}
    (hsends : controller.shouldSkipFrame = false) (htarget : controller.targetBps.toNat ≤ ceiling)
    (hspan : durationMs controller.window ≤ 2000)
    (hsizes : ∀ frame ∈ controller.window, frame.2.toNat ≤ maxSize)
    (hcounted : totalBytes controller.window * 8000 < 2 ^ 64) :
    totalBytes controller.window ≤ calmBytes ceiling maxSize := by
  rw [← Bool.not_eq_true, shouldSkipFrame_eq_true_iff, Nat.mod_eq_of_lt hcounted] at hsends
  by_cases hlen : 2 ≤ controller.window.length
  · have hpos : 0 < durationMs controller.window := durationMs_pos _
    have hmeasured : totalBytes controller.window * 8000 / durationMs controller.window
        ≤ 3 * ceiling / 2 := by
      have hthreshold := Nat.not_lt.mp fun hover => hsends ⟨hlen, hover⟩
      have hwrapped : controller.targetBps.toNat * 3 % 2 ^ 64 ≤ controller.targetBps.toNat * 3 :=
        Nat.mod_le _ _
      omega
    have hbits : totalBytes controller.window * 8000 < (3 * ceiling / 2 + 1) * 2000 :=
      calc totalBytes controller.window * 8000
          < (3 * ceiling / 2 + 1) * durationMs controller.window :=
            (Nat.div_lt_iff_lt_mul hpos).mp (Nat.lt_succ_of_le hmeasured)
        _ ≤ (3 * ceiling / 2 + 1) * 2000 := Nat.mul_le_mul_left _ hspan
    have hbytes : totalBytes controller.window ≤ 3 * ceiling / 8 := by omega
    exact hbytes.trans (Nat.le_max_left _ _)
  · -- at most one frame
    have hsingle : totalBytes controller.window ≤ maxSize := by
      match hwindow : controller.window with
      | [] => exact Nat.zero_le _
      | [frame] =>
          rw [hwindow] at hsizes
          exact hsizes frame (List.mem_singleton_self frame)
      | _ :: _ :: _ =>
          rw [hwindow] at hlen
          exact absurd (Nat.le_add_left 2 _) hlen
    exact hsingle.trans (Nat.le_max_right _ _)

/-! ### Along a run -/

structure Calm (ceiling maxSize : Nat) (calls : List Call) (state : State) : Prop where
  sent_sublist : state.sent.Sublist (offered calls)
  windowMs_eq : state.controller.windowMs = 2000
  window_eq : state.controller.window = recentFrames state.sent
  target_le : state.controller.targetBps.toNat ≤ ceiling
  sizes_le : ∀ frame ∈ state.sent, frame.2.toNat ≤ maxSize
  bytes_le : ∀ before, before <+: state.sent →
    totalBytes (recentFrames before) ≤ calmBytes ceiling maxSize + maxSize

theorem recentFrames_sublist (frames : List (UInt64 × UInt64)) :
    (recentFrames frames).Sublist frames := by
  unfold recentFrames SlidingWindow.recent
  split
  · exact List.nil_sublist _
  · exact List.filter_sublist

variable {ceiling maxSize : Nat} {calls : List Call} {state : State}

theorem calm_new {targetBps : UInt64} (htarget : targetBps.toNat ≤ ceiling) :
    Calm ceiling maxSize [] (new targetBps) where
  sent_sublist := .slnil
  windowMs_eq := rfl
  window_eq := rfl
  target_le := htarget
  sizes_le := fun _ hmem => absurd hmem List.not_mem_nil
  bytes_le := by
    intro before hbefore
    rw [List.prefix_nil.mp hbefore]
    exact Nat.zero_le _

theorem Calm.setTargetBps (h : Calm ceiling maxSize calls state) {target : UInt64}
    (htarget : target.toNat ≤ ceiling) :
    Calm ceiling maxSize (calls ++ [.setTargetBps target]) (step state (.setTargetBps target)) where
  sent_sublist := by
    rw [offered, List.filterMap_append]
    exact h.sent_sublist.trans (List.sublist_append_left _ _)
  windowMs_eq := h.windowMs_eq
  window_eq := h.window_eq
  target_le := htarget
  sizes_le := h.sizes_le
  bytes_le := h.bytes_le

theorem offered_concat (calls : List Call) (frame : UInt64 × UInt64) :
    offered (calls ++ [.offer frame]) = offered calls ++ [frame] := by
  rw [offered, List.filterMap_append]
  rfl

theorem Calm.offer (h : Calm ceiling maxSize calls state) {frame : UInt64 × UInt64}
    (hsize : frame.2.toNat ≤ maxSize)
    (hsorted : FramesInOrder (offered (calls ++ [.offer frame])))
    (hcounted : (calmBytes ceiling maxSize + maxSize) * 8000 < 2 ^ 64) :
    Calm ceiling maxSize (calls ++ [.offer frame]) (step state (.offer frame)) := by
  rw [offered_concat] at hsorted
  by_cases hskip : state.controller.shouldSkipFrame = true
  · have hkept : step state (.offer frame) = state := by rw [step, if_pos hskip]
    rw [hkept]
    refine { h with sent_sublist := ?_ }
    rw [offered_concat]
    exact h.sent_sublist.trans (List.sublist_append_left _ _)
  have hsent : step state (.offer frame)
      = ⟨state.controller.recordFrame frame.1 frame.2, state.sent ++ [frame]⟩ := by
    rw [step, if_neg hskip]
  have hsublist : (state.sent ++ [frame]).Sublist (offered calls ++ [frame]) :=
    h.sent_sublist.append_right [frame]
  have horder : FramesInOrder (state.sent ++ [frame]) := hsorted.sublist hsublist
  have hcalm : totalBytes (recentFrames state.sent) ≤ calmBytes ceiling maxSize := by
    have hbefore : totalBytes (recentFrames state.sent) * 8000 < 2 ^ 64 :=
      (Nat.mul_le_mul_right 8000 (h.bytes_le state.sent List.prefix_rfl)).trans_lt hcounted
    rw [← h.window_eq] at hbefore ⊢
    refine totalBytes_le_calmBytes (Bool.not_eq_true _ ▸ hskip) h.target_le ?_ ?_ hbefore
    · rw [h.window_eq]
      exact durationMs_recentFrames_le state.sent
    · intro old hold
      rw [h.window_eq] at hold
      exact h.sizes_le old ((recentFrames_sublist _).mem hold)
  rw [hsent]
  constructor
  · rw [offered_concat]
    exact hsublist
  · rw [recordFrame_eq, adjustQuality_windowMs]
    exact h.windowMs_eq
  · exact window_recordFrame_eq _ h.windowMs_eq h.window_eq frame horder
  · rw [recordFrame_eq, adjustQuality_targetBps]
    exact h.target_le
  · intro old hold
    rcases List.mem_append.mp hold with hold | hold
    · exact h.sizes_le old hold
    · rwa [List.mem_singleton.mp hold]
  · intro before hbefore
    rcases List.prefix_concat_iff.mp hbefore with rfl | hbefore
    · calc totalBytes (recentFrames (state.sent ++ [frame]))
          ≤ totalBytes (recentFrames state.sent) + frame.2.toNat :=
            totalBytes_recentFrames_concat_le horder
        _ ≤ calmBytes ceiling maxSize + maxSize := Nat.add_le_add hcalm hsize
    · exact h.bytes_le before hbefore

theorem calm_run {targetBps : UInt64} (htarget : targetBps.toNat ≤ ceiling) (calls : List Call)
    (hwithin : ∀ call ∈ calls, call.Within ceiling maxSize)
    (hsorted : FramesInOrder (offered calls))
    (hcounted : (calmBytes ceiling maxSize + maxSize) * 8000 < 2 ^ 64) :
    Calm ceiling maxSize calls (run step (new targetBps) calls) := by
  induction calls using List.reverseRecOn with
  | nil => exact calm_new htarget
  | append_singleton calls call ih =>
      have hlast := hwithin call (List.mem_append_right _ (List.mem_singleton_self call))
      have hbefore : FramesInOrder (offered calls) := by
        rw [offered, List.filterMap_append] at hsorted
        exact (List.pairwise_append.mp hsorted).1
      have hcalm := ih (fun earlier hmem => hwithin earlier (List.mem_append_left _ hmem)) hbefore
      rw [run_concat]
      cases call with
      | offer frame => exact hcalm.offer hlast hsorted hcounted
      | setTargetBps target => exact hcalm.setTargetBps hlast

/-- **Skipping bounds the rate.** What is sent in any two seconds is at most one and a half times
the ceiling, or one frame if that is more, and one frame besides, as long as that many bits can be
counted. -/
theorem sent_rate_bounded (targetBps : UInt64) (ceiling maxSize : Nat)
    (htarget : targetBps.toNat ≤ ceiling) (calls : List Call)
    (hwithin : ∀ call ∈ calls, call.Within ceiling maxSize)
    (hsorted : FramesInOrder (offered calls))
    (hcounted : (calmBytes ceiling maxSize + maxSize) * 8000 < 2 ^ 64) (time : Nat) :
    totalBytes ((run step (new targetBps) calls).sent.filter fun frame =>
        time - 2000 ≤ frame.1.toNat ∧ frame.1.toNat ≤ time)
      ≤ calmBytes ceiling maxSize + maxSize := by
  have hcalm := calm_run htarget calls hwithin hsorted hcounted
  have hmono : Monotone fun stamp : Nat => stamp - 2000 :=
    fun _ _ hle => Nat.sub_le_sub_right hle 2000
  obtain ⟨before, hbefore, hsublist⟩ :=
    SlidingWindow.exists_prefix_recent hmono (hsorted.sublist hcalm.sent_sublist)
      fun frame hspan => of_decide_eq_true hspan
  exact (totalBytes_le_of_sublist hsublist).trans (hcalm.bytes_le before hbefore)

theorem sent_rate_bounded_eight_megabits :
    totalBytes ((run step (new 8000000) [.offer (0, 65536), .setTargetBps 400000,
        .offer (500, 65536), .offer (900, 65536)]).sent.filter fun frame =>
          1000 - 2000 ≤ frame.1.toNat ∧ frame.1.toNat ≤ 1000)
      ≤ calmBytes 8000000 65536 + 65536 :=
  sent_rate_bounded 8000000 8000000 65536 (by decide) _ (by decide) (by decide) (by decide) 1000

end QuicView.RateLimit
