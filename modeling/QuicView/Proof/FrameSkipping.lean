import QuicView.Library.Execution
import QuicView.Proof.BitrateWindow

/-!
# Frame skipping and the frozen window

The window slides when a frame is recorded and at no other time. Once the frames sent measure above
one and a half times the target, every later frame is skipped, none is recorded, and the measurement
stands for good: a stream is sent up to its first burst and no further.
-/

namespace QuicView

open Execution BitrateController

/-- A sender driving the controller as documented: a frame is recorded if it is sent. -/
structure Sender where
  controller : BitrateController
  lastSentMs : Option UInt64

namespace Sender

def new (targetBps : UInt64) : Sender where
  controller := .new targetBps
  lastSentMs := none

def offer (sender : Sender) (frame : UInt64 × UInt64) : Sender :=
  if sender.controller.shouldSkipFrame then sender
  else
    { controller := sender.controller.recordFrame frame.1 frame.2
      lastSentMs := some frame.1 }

/-- An offer more than two seconds after the last frame sent is not skipped. -/
def SendsLate (sender : Sender) (frame : UInt64 × UInt64) : Prop :=
  ∀ last, sender.lastSentMs = some last → last.toNat + 2000 < frame.1.toNat →
    sender.controller.shouldSkipFrame = false

end Sender

/-! ### Bursts -/

/-- The last two seconds of a stream measure above one and a half times the target, in the
controller's own arithmetic. -/
def Burst (targetBps : UInt64) (frames : List (UInt64 × UInt64)) : Prop :=
  2 ≤ (recentFrames frames).length
    ∧ targetBps.toNat * 3 % 2 ^ 64 / 2
        < totalBytes (recentFrames frames) * 8000 % 2 ^ 64 / durationMs (recentFrames frames)

instance (targetBps : UInt64) (frames : List (UInt64 × UInt64)) :
    Decidable (Burst targetBps frames) := by
  unfold Burst
  infer_instance

def NoEarlierBurst (targetBps : UInt64) (frames : List (UInt64 × UInt64)) : Prop :=
  ∀ shorter, shorter <+: frames → Burst targetBps shorter → shorter = frames

theorem noEarlierBurst_nil (targetBps : UInt64) : NoEarlierBurst targetBps [] :=
  fun _ hshorter _ => List.prefix_nil.mp hshorter

theorem NoEarlierBurst.concat {targetBps : UInt64} {frames : List (UInt64 × UInt64)}
    (hfirst : NoEarlierBurst targetBps frames) (hcalm : ¬ Burst targetBps frames)
    (frame : UInt64 × UInt64) : NoEarlierBurst targetBps (frames ++ [frame]) := by
  intro shorter hshorter hburst
  rcases List.prefix_concat_iff.mp hshorter with heq | hshorter
  · exact heq
  · exact absurd (hfirst shorter hshorter hburst ▸ hburst) hcalm

theorem NoEarlierBurst.unique {targetBps : UInt64} {stream frames frames' : List (UInt64 × UInt64)}
    (hfirst : NoEarlierBurst targetBps frames) (hfirst' : NoEarlierBurst targetBps frames')
    (hburst : Burst targetBps frames) (hburst' : Burst targetBps frames')
    (hframes : frames <+: stream) (hframes' : frames' <+: stream) : frames = frames' := by
  rcases List.prefix_or_prefix_of_prefix hframes hframes' with hle | hle
  · exact hfirst' frames hle hburst
  · exact (hfirst frames' hle hburst').symm

/-! ### What a sender has sent -/

structure Sender.Follows (sender : Sender) (targetBps : UInt64)
    (offers sent : List (UInt64 × UInt64)) : Prop where
  sent_prefix : sent <+: offers
  first : NoEarlierBurst targetBps sent
  stopped : Burst targetBps sent ∨ sent = offers
  targetBps_eq : sender.controller.targetBps = targetBps
  windowMs_eq : sender.controller.windowMs = 2000
  window_eq : sender.controller.window = recentFrames sent
  lastSentMs_eq : sender.lastSentMs = sent.getLast?.map Prod.fst

theorem shouldSkipFrame_eq_true_iff (ctrl : BitrateController) :
    ctrl.shouldSkipFrame = true
      ↔ 2 ≤ ctrl.window.length
        ∧ ctrl.targetBps.toNat * 3 % 2 ^ 64 / 2
            < totalBytes ctrl.window * 8000 % 2 ^ 64 / durationMs ctrl.window := by
  have hthreshold : (ctrl.targetBps * 3 / 2).toNat = ctrl.targetBps.toNat * 3 % 2 ^ 64 / 2 := by
    rw [UInt64.toNat_div, UInt64.toNat_mul]
    rfl
  rw [shouldSkipFrame, decide_eq_true_iff, gt_iff_lt, UInt64.lt_iff_toNat_lt, hthreshold,
    toNat_measuredBps]
  by_cases hlen : ctrl.window.length < 2
  · rw [if_pos hlen]
    exact iff_of_false (Nat.not_lt_zero _) fun h => absurd h.1 (Nat.not_le.mpr hlen)
  · rw [if_neg hlen]
    exact (and_iff_right (Nat.not_lt.mp hlen)).symm

variable {targetBps : UInt64} {offers sent : List (UInt64 × UInt64)} {sender : Sender}

theorem Sender.Follows.skips_iff (h : sender.Follows targetBps offers sent) :
    sender.controller.shouldSkipFrame = true ↔ Burst targetBps sent := by
  rw [shouldSkipFrame_eq_true_iff, h.targetBps_eq, h.window_eq, Burst]

theorem Sender.follows_new (targetBps : UInt64) : (Sender.new targetBps).Follows targetBps [] [] :=
  ⟨List.nil_prefix, noEarlierBurst_nil targetBps, .inr rfl, rfl, rfl, rfl, rfl⟩

theorem Sender.Follows.offer (h : sender.Follows targetBps offers sent) (frame : UInt64 × UInt64)
    (hsorted : FramesInOrder (offers ++ [frame])) :
    ∃ sent', (sender.offer frame).Follows targetBps (offers ++ [frame]) sent' := by
  unfold Sender.offer
  by_cases hskip : sender.controller.shouldSkipFrame = true
  · rw [if_pos hskip]
    exact ⟨sent, h.sent_prefix.trans (List.prefix_append _ _), h.first, .inl (h.skips_iff.mp hskip),
      h.targetBps_eq, h.windowMs_eq, h.window_eq, h.lastSentMs_eq⟩
  · -- a sender that does not skip has sent everything so far
    have hcalm : ¬ Burst targetBps sent := fun hburst => hskip (h.skips_iff.mpr hburst)
    obtain rfl : sent = offers := h.stopped.resolve_left hcalm
    rw [if_neg hskip]
    refine ⟨sent ++ [frame], List.prefix_rfl, h.first.concat hcalm frame, .inr rfl, ?_, ?_,
      window_recordFrame_eq _ h.windowMs_eq h.window_eq frame hsorted, ?_⟩
    · rw [recordFrame_eq, adjustQuality_targetBps]
      exact h.targetBps_eq
    · rw [recordFrame_eq, adjustQuality_windowMs]
      exact h.windowMs_eq
    · rw [List.getLast?_concat]
      rfl

/-- **A stream is sent up to its first burst.** -/
theorem Sender.follows_run (targetBps : UInt64) (offers : List (UInt64 × UInt64))
    (hsorted : FramesInOrder offers) :
    ∃ sent, (run Sender.offer (Sender.new targetBps) offers).Follows targetBps offers sent := by
  induction offers using List.reverseRec with
  | nil => exact ⟨[], Sender.follows_new targetBps⟩
  | append_singleton offers frame ih =>
      obtain ⟨sent, hsent⟩ := ih (List.pairwise_append.mp hsorted).1
      rw [run_concat]
      exact hsent.offer frame hsorted

/-! ### When skipping does not freeze the stream -/

/-- No frame is offered more than two seconds after the end of the first burst. -/
def NoOfferLongAfterBurst (targetBps : UInt64) (offers : List (UInt64 × UInt64)) : Prop :=
  ∀ burst between frame after last, offers = burst ++ between ++ frame :: after →
    NoEarlierBurst targetBps burst → Burst targetBps burst → burst.getLast? = some last →
    frame.1.toNat ≤ last.1.toNat + 2000

/-- **When late frames are sent.** With frames offered in order, none offered more than two seconds
after the last frame sent is skipped exactly when none is offered that long after the first
burst. -/
theorem sendsLate_iff_noOfferLongAfterBurst (targetBps : UInt64)
    (offers : List (UInt64 × UInt64)) (hsorted : FramesInOrder offers) :
    Guarded Sender.offer Sender.SendsLate (Sender.new targetBps) offers
      ↔ NoOfferLongAfterBurst targetBps offers := by
  have hreached : ∀ before frame after, offers = before ++ frame :: after →
      ∃ sent, (run Sender.offer (Sender.new targetBps) before).Follows targetBps before sent := by
    intro before frame after heq
    exact Sender.follows_run targetBps before (List.pairwise_append.mp (heq ▸ hsorted)).1
  constructor
  · intro hguarded burst between frame after last heq hfirst hburst hlast
    obtain ⟨sent, hsent⟩ := hreached _ _ _ heq
    have hprefix : burst <+: burst ++ between := List.prefix_append _ _
    -- what was sent is the burst: the whole stream otherwise, with a burst inside it
    have hsentBurst : Burst targetBps sent := by
      rcases hsent.stopped with hsentBurst | rfl
      · exact hsentBurst
      · exact hsent.first burst hprefix hburst ▸ hburst
    obtain rfl : sent = burst :=
      hsent.first.unique hfirst hsentBurst hburst hsent.sent_prefix hprefix
    by_contra hlate
    have hskips := hsent.skips_iff.mpr hburst
    have hsends := hguarded _ frame after heq last.1 (by rw [hsent.lastSentMs_eq, hlast]; rfl)
      (Nat.not_le.mp hlate)
    exact absurd hskips (by rw [hsends]; decide)
  · intro hno before frame after heq last hlast hlate
    obtain ⟨sent, hsent⟩ := hreached _ _ _ heq
    rw [← Bool.not_eq_true]
    intro hskips
    have hburst := hsent.skips_iff.mp hskips
    obtain ⟨between, rfl⟩ := hsent.sent_prefix
    rw [hsent.lastSentMs_eq] at hlast
    obtain ⟨lastSent, hlastSent, rfl⟩ := Option.map_eq_some_iff.mp hlast
    have hle := hno sent between frame after lastSent heq hsent.first hburst hlastSent
    omega

theorem sendsLate_iff_noOfferLongAfterBurst_frozen :
    Guarded Sender.offer Sender.SendsLate (Sender.new 1000) [(0, 1000), (1, 1000), (5000, 10)]
      ↔ NoOfferLongAfterBurst 1000 [(0, 1000), (1, 1000), (5000, 10)] :=
  sendsLate_iff_noOfferLongAfterBurst 1000 _ (by decide)

theorem late_frame_skipped_after_burst :
    ¬ ∀ (targetBps : UInt64) (offers : List (UInt64 × UInt64)), FramesInOrder offers →
        Guarded Sender.offer Sender.SendsLate (Sender.new targetBps) offers := by
  intro hall
  have hguarded := hall 1000 [(0, 1000), (1, 1000), (5000, 10)] (by decide)
  have hsends := hguarded [(0, 1000), (1, 1000)] (5000, 10) [] rfl 1 (by decide) (by decide)
  revert hsends
  decide

end QuicView
