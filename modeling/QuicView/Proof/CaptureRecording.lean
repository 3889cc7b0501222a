import QuicView.Library.Refinement
import QuicView.Library.Standing
import QuicView.Proof.FrameSizes

/-!
# Every capture source is a recorder

A recorder either runs, at the resolution it was started with, or does not, and numbers the frames
it delivers. The sources differ in where the pixels come from, and one can fail where the other
cannot, but both are recorders.
-/

namespace QuicView

open Refinement Standing

/-! ### The recorder -/

structure Recorder where
  running : Option Resolution
  delivered : Nat

def notStarted : CaptureError := .captureFailed "not started"

def clock (number : Nat) : UInt64 := UInt64.ofNat number * 16667

/-- What a recorder may answer. A start finds the resolution that the system opens with. -/
inductive Recorder.Step {System : Type} (opens : System → Resolution) :
    Recorder → System × CaptureCall → CaptureResult → Recorder → Prop where
  | displays {recorder : Recorder} {system : System}
      {result : Except CaptureError (List DisplayInfo)} :
      Step opens recorder (system, .enumerateDisplays) (.displays result) recorder
  | started {recorder : Recorder} {system : System} {displayId : DisplayId} :
      Step opens recorder (system, .start displayId) (.done (.ok ()))
        { recorder with running := some (opens system) }
  | refused {recorder : Recorder} {system : System} {displayId : DisplayId} {err : CaptureError} :
      Step opens recorder (system, .start displayId) (.done (.error err)) recorder
  | idle {recorder : Recorder} {system : System} (hidle : recorder.running = none) :
      Step opens recorder (system, .grab) (.frame (.error notStarted)) recorder
  | failed {recorder : Recorder} {system : System} {err : CaptureError}
      (hrunning : recorder.running.isSome = true) (herr : err ≠ notStarted) :
      Step opens recorder (system, .grab) (.frame (.error err)) recorder
  | frame {recorder : Recorder} {system : System} {frame : FrameBuffer}
      (hrunning : recorder.running = some frame.resolution) (hformat : frame.pixelFormat = .bgra8)
      (hlength : frame.resolution.bytes < 2 ^ 32 → frame.data.length = frame.resolution.bytes)
      (hclock : frame.timestampUs = clock (recorder.delivered + 1)) :
      Step opens recorder (system, .grab) (.frame (.ok (some frame)))
        { recorder with delivered := recorder.delivered + 1 }
  | stopped {recorder : Recorder} {system : System} :
      Step opens recorder (system, .stop) (.done (.ok ())) { recorder with running := none }

theorem clock_succ (number : Nat) : clock (number + 1) = (UInt64.ofNat number + 1) * 16667 := by
  rw [clock, UInt64.ofNat_add]
  rfl

structure Recorder.Matches (recorder : Recorder) (active : Bool) (resolution : Resolution)
    (frameCount : UInt64) : Prop where
  running : recorder.running = if active then some resolution else none
  count : frameCount = UInt64.ofNat recorder.delivered

/-! ### The sources are recorders -/

namespace TestCaptureSource

theorem take_grab_idle {source : TestCaptureSource} (hactive : source.active = false) :
    captureSource.take source ((), .grab) = (.frame (.error notStarted), source) := by
  simp [CaptureSource.take, captureSource, grab, hactive, notStarted]

theorem take_grab_active {source : TestCaptureSource} (hactive : source.active = true) :
    captureSource.take source ((), .grab)
      = (.frame (.ok (some
          { data := List.replicate (PixelFormat.bgra8.bufferSize source.resolution).toNat
              ((source.frameCount + 1) % 256).toUInt8
            pixelFormat := .bgra8
            resolution := source.resolution
            timestampUs := (source.frameCount + 1) * 16667 })),
        { source with frameCount := source.frameCount + 1 }) := by
  simp [CaptureSource.take, captureSource, grab, hactive]

theorem refines (resolution : Resolution) :
    Refines captureSource.take (Recorder.Step fun _ => resolution)
      fun source recorder => source.resolution = resolution
        ∧ recorder.Matches source.active source.resolution source.frameCount := by
  rintro source recorder ⟨system, call⟩ ⟨hresolution, hmatches⟩
  cases call with
  | enumerateDisplays => exact ⟨recorder, .displays, hresolution, hmatches⟩
  | start displayId =>
      exact ⟨_, .started, hresolution, by rw [← hresolution]; rfl, hmatches.count⟩
  | stop => exact ⟨_, .stopped, hresolution, rfl, hmatches.count⟩
  | grab =>
      cases hactive : source.active with
      | false =>
          have hidle : recorder.running = none := by rw [hmatches.running, hactive]; rfl
          rw [take_grab_idle hactive]
          exact ⟨recorder, .idle hidle, hresolution, hmatches⟩
      | true =>
          have hrunning : recorder.running = some source.resolution := by
            rw [hmatches.running, hactive]
            rfl
          rw [take_grab_active hactive]
          refine ⟨_, .frame hrunning rfl (fun hfits => ?_) ?_, hresolution, ?_, ?_⟩
          · exact List.length_replicate.trans (toNat_bufferSize (hfits.trans (by decide)))
          · rw [clock_succ, ← hmatches.count]
          · exact hmatches.running
          · rw [hmatches.count, UInt64.ofNat_add]
            rfl

end TestCaptureSource

namespace GdiCaptureSource

def opens (gdi : Gdi) : Resolution :=
  ⟨gdi.getSystemMetrics.1.toUInt32, gdi.getSystemMetrics.2.toUInt32⟩

theorem start_cases (gdi : Gdi) (source : GdiCaptureSource) (displayId : DisplayId) :
    (∃ err, start gdi source displayId = (.error err, source))
      ∨ start gdi source displayId
        = (.ok (), { source with
            targetDisplay := some displayId
            resolution := opens gdi
            active := true }) := by
  unfold start enumerateDisplays
  by_cases hsize : gdi.getSystemMetrics.1 ≤ 0 ∨ gdi.getSystemMetrics.2 ≤ 0
  · left
    simp only [if_pos hsize]
    exact ⟨_, rfl⟩
  · simp only [if_neg hsize, List.find?_cons, List.find?_nil]
    by_cases hprimary : DisplayId.primary = displayId
    · right
      rw [beq_iff_eq.mpr hprimary]
      rfl
    · left
      rw [beq_false_of_ne hprimary]
      exact ⟨_, rfl⟩

theorem grab_cases (gdi : Gdi) {source : GdiCaptureSource} (hactive : source.active = true) :
    (∃ err, err ≠ notStarted ∧ grab gdi source = (.error err, source))
      ∨ ∃ frame, grab gdi source
          = (.ok (some frame), { source with frameCount := source.frameCount + 1 })
        ∧ frame.pixelFormat = .bgra8 ∧ frame.resolution = source.resolution
        ∧ (source.resolution.bytes < 2 ^ 32 → frame.data.length = source.resolution.bytes)
        ∧ frame.timestampUs = (source.frameCount + 1) * 16667 := by
  unfold grab
  simp only [hactive, Bool.not_true, Bool.false_eq_true, if_false]
  split
  · exact .inl ⟨_, by decide, rfl⟩
  split
  · exact .inl ⟨_, by decide, rfl⟩
  split
  · exact .inl ⟨_, by decide, rfl⟩
  split
  · exact .inl ⟨_, by decide, rfl⟩
  split
  · exact .inl ⟨_, by decide, rfl⟩
  · refine .inr ⟨_, rfl, rfl, rfl, fun hfits => ?_, rfl⟩
    have hallocated : source.allocate.length = source.resolution.bytes :=
      List.length_replicate.trans (toNat_product_eq_iff.mpr hfits)
    exact (gdi.getDIBits _ _ _ source.allocate).2.property.trans hallocated

theorem grab_idle (gdi : Gdi) {source : GdiCaptureSource} (hactive : source.active = false) :
    grab gdi source = (.error notStarted, source) := by
  simp [grab, hactive, notStarted]

theorem refines :
    Refines captureSource.take (Recorder.Step opens) fun source recorder =>
      recorder.Matches source.active source.resolution source.frameCount := by
  rintro source recorder ⟨gdi, call⟩ hmatches
  cases call with
  | enumerateDisplays => exact ⟨recorder, .displays, hmatches⟩
  | stop => exact ⟨_, .stopped, rfl, hmatches.count⟩
  | start displayId =>
      have htake : captureSource.take source (gdi, .start displayId)
          = (start gdi source displayId).map .done id := rfl
      rw [htake]
      rcases start_cases gdi source displayId with ⟨err, hstart⟩ | hstart
      · rw [hstart]
        exact ⟨recorder, .refused, hmatches⟩
      · rw [hstart]
        exact ⟨_, .started, rfl, hmatches.count⟩
  | grab =>
      have htake : captureSource.take source (gdi, .grab) = (grab gdi source).map .frame id := rfl
      rw [htake]
      cases hactive : source.active with
      | false =>
          have hidle : recorder.running = none := by rw [hmatches.running, hactive]; rfl
          rw [grab_idle gdi hactive]
          exact ⟨recorder, .idle hidle, hmatches⟩
      | true =>
          have hrunning : recorder.running = some source.resolution := by
            rw [hmatches.running, hactive]
            rfl
          rcases grab_cases gdi hactive with ⟨err, herr, hgrab⟩
            | ⟨frame, hgrab, hformat, hresolution, hlength, hclock⟩
          · rw [hgrab]
            exact ⟨recorder, .failed (by rw [hrunning]; rfl) herr, hmatches⟩
          · rw [hgrab]
            rw [← hresolution] at hrunning hlength
            refine ⟨_, .frame hrunning hformat hlength ?_, hmatches.running, ?_⟩
            · rw [hclock, clock_succ, ← hmatches.count]
            · show source.frameCount + 1 = UInt64.ofNat (recorder.delivered + 1)
              rw [hmatches.count, UInt64.ofNat_add]
              rfl

end GdiCaptureSource

/-! ### What recorders have in common -/

section

variable {System : Type}

def CaptureResult.delivered : CaptureResult → Option FrameBuffer
  | .frame (.ok buffer) => buffer
  | _ => none

def framesOf (entries : List ((System × CaptureCall) × CaptureResult)) : List FrameBuffer :=
  entries.filterMap fun entry => entry.2.delivered

def StartsAt (opens : System → Resolution) (resolution : Resolution)
    (entry : (System × CaptureCall) × CaptureResult) : Prop :=
  (∃ displayId, entry.1.2 = .start displayId) ∧ entry.2 = .done (.ok ())
    ∧ opens entry.1.1 = resolution

def Ends (entry : (System × CaptureCall) × CaptureResult) : Prop :=
  entry.1.2 = .stop ∨ (∃ displayId, entry.1.2 = .start displayId) ∧ entry.2 = .done (.ok ())

def Recording (opens : System → Resolution) (resolution : Resolution)
    (entries : List ((System × CaptureCall) × CaptureResult)) : Prop :=
  Stands (StartsAt opens resolution) Ends entries

structure Recorded (opens : System → Resolution)
    (entries : List ((System × CaptureCall) × CaptureResult)) : Prop where
  clocked : (framesOf entries).map FrameBuffer.timestampUs
    = (List.range' 1 (framesOf entries).length).map clock
  /-- A grab is told that there is no recording exactly if there is none. -/
  idle : ∀ before system result after,
    entries = before ++ ((system, .grab), .frame result) :: after →
    (result = .error notStarted ↔ ¬ ∃ resolution, Recording opens resolution before)
  /-- A frame is one of the recording that is on, of four bytes for each pixel of its resolution if
  32 bits hold their number. -/
  frame : ∀ before system frame after,
    entries = before ++ ((system, .grab), .frame (.ok frame)) :: after →
    ∃ buffer, frame = some buffer ∧ Recording opens buffer.resolution before
      ∧ buffer.pixelFormat = .bgra8
      ∧ (buffer.resolution.bytes < 2 ^ 32 → buffer.data.length = buffer.resolution.bytes)

variable {opens : System → Resolution}
  {entries : List ((System × CaptureCall) × CaptureResult)} {recorder : Recorder}

def Recorder.new : Recorder := ⟨none, 0⟩

theorem recording_concat (resolution : Resolution)
    (entry : (System × CaptureCall) × CaptureResult) :
    Recording opens resolution (entries ++ [entry])
      ↔ StartsAt opens resolution entry ∨ (Recording opens resolution entries ∧ ¬ Ends entry) :=
  stands_concat entry

theorem running_iff_recording
    (h : Allowed (Recorder.Step opens) .new entries recorder) (resolution : Resolution) :
    recorder.running = some resolution ↔ Recording opens resolution entries := by
  apply h.run (motive := fun entries recorder =>
    recorder.running = some resolution ↔ Recording opens resolution entries)
  · exact iff_of_false (fun hnone => by cases hnone) not_stands_nil
  · intro before recorder call result next ih hstep
    rw [recording_concat, ← ih]
    cases hstep <;> simp [StartsAt, Ends]

theorem isSome_running_iff (h : Allowed (Recorder.Step opens) .new entries recorder) :
    recorder.running.isSome = true ↔ ∃ resolution, Recording opens resolution entries := by
  rw [Option.isSome_iff_exists]
  exact exists_congr (running_iff_recording h)

theorem timestamps_eq (h : Allowed (Recorder.Step opens) .new entries recorder) :
    (framesOf entries).length = recorder.delivered
      ∧ (framesOf entries).map FrameBuffer.timestampUs
        = (List.range' 1 recorder.delivered).map clock := by
  apply h.run (motive := fun entries recorder =>
    (framesOf entries).length = recorder.delivered
      ∧ (framesOf entries).map FrameBuffer.timestampUs
        = (List.range' 1 recorder.delivered).map clock)
  · exact ⟨rfl, rfl⟩
  · rintro before recorder call result next ⟨hlength, htimes⟩ hstep
    have hframes : framesOf (before ++ [(call, result)])
        = framesOf before ++ result.delivered.toList := by
      rw [framesOf, List.filterMap_append]
      cases hdelivered : result.delivered <;> simp [framesOf, hdelivered]
    rw [hframes]
    cases hstep with
    | frame _ _ _ hclock =>
        constructor
        · rw [List.length_append, hlength]
          rfl
        · rw [List.map_append, htimes, List.range'_1_concat, List.map_append, Nat.add_comm 1]
          exact congrArg _ (congrArg (fun time => [time]) hclock)
    | _ =>
        simp only [CaptureResult.delivered, Option.toList_none, List.append_nil]
        exact ⟨hlength, htimes⟩

theorem recorded (h : Allowed (Recorder.Step opens) .new entries recorder) :
    Recorded opens entries where
  clocked := by
    obtain ⟨hlength, htimes⟩ := timestamps_eq h
    rw [hlength]
    exact htimes
  idle := by
    rintro before system result after rfl
    obtain ⟨middle, hbefore, hafter⟩ := h.exists_of_append
    rw [← isSome_running_iff hbefore]
    cases hafter with
    | cons hstep _ =>
        cases hstep with
        | idle hidle => simp [hidle]
        | failed hrunning herr => simp [hrunning, herr]
        | frame hrunning _ _ _ => simp [hrunning]
  frame := by
    rintro before system frame after rfl
    obtain ⟨middle, hbefore, hafter⟩ := h.exists_of_append
    cases hafter with
    | cons hstep _ =>
        cases hstep with
        | frame hrunning hformat hlength _ =>
            exact ⟨_, rfl, (running_iff_recording hbefore _).mp hrunning, hformat, hlength⟩

end

/-- **Both sources record.** Whatever the calls on a capture source and whatever the system answers
to each: a grab is refused as not started exactly if no recording is on, a frame is as its recording
was started, and all frames are on one clock. -/
theorem captures_are_recordings :
    (∀ (resolution : Resolution) (calls : List (Unit × CaptureCall)),
      Recorded (fun _ => resolution)
        (trace TestCaptureSource.captureSource.take (.new resolution) calls).1)
      ∧ ∀ calls : List (Gdi × CaptureCall),
        Recorded GdiCaptureSource.opens
          (trace GdiCaptureSource.captureSource.take .new calls).1 := by
  constructor
  · intro resolution calls
    obtain ⟨recorder, hallowed, -⟩ := (TestCaptureSource.refines resolution).allowed_trace
      (.new resolution) .new ⟨rfl, rfl, rfl⟩ calls
    exact recorded hallowed
  · intro calls
    obtain ⟨recorder, hallowed, -⟩ := GdiCaptureSource.refines.allowed_trace .new .new
      ⟨rfl, rfl⟩ calls
    exact recorded hallowed

end QuicView
