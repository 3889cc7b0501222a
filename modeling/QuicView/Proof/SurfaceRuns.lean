import QuicView.Display.Surface
import QuicView.Library.Execution
import QuicView.Proof.FrameSizes

namespace QuicView.MemorySurface

open Execution

def Sized (surface : MemorySurface) : Prop :=
  surface.pixels.length = bufLen surface.resolution

theorem sized_new (displayId : DisplayId) (res : Resolution) : Sized (new displayId res) :=
  length_pixels_new displayId res

theorem sized_resize (surface : MemorySurface) (res : Resolution) :
    Sized (surface.resize res).2 :=
  length_pixels_resize surface res

theorem present_of_length_ne {surface : MemorySurface} {pixels : List UInt8}
    (hlength : pixels.length ≠ bufLen surface.resolution) :
    ∃ err, surface.present pixels = some (.error err, surface) :=
  ⟨_, if_pos hlength⟩

theorem present_of_length_eq {surface : MemorySurface} {pixels : List UInt8}
    (hsized : Sized surface) (hlength : pixels.length = bufLen surface.resolution) :
    surface.present pixels = some (.ok (), { surface with buffer := pixels }) := by
  have hcopy : copyFromSlice surface.buffer pixels = some pixels :=
    if_pos (hsized.trans hlength.symm)
  rw [present, if_neg (not_not.mpr hlength), hcopy]
  rfl

theorem sized_step (surface : MemorySurface) (call : Call) (hsized : Sized surface) :
    ∃ next, surface.step call = some next ∧ Sized next := by
  cases call with
  | resize res => exact ⟨_, rfl, sized_resize surface res⟩
  | present pixels =>
      by_cases hlength : pixels.length = bufLen surface.resolution
      · refine ⟨{ surface with buffer := pixels }, ?_, hlength⟩
        rw [step, present_of_length_eq hsized hlength]
        rfl
      · obtain ⟨err, herror⟩ := present_of_length_ne hlength
        refine ⟨surface, ?_, hsized⟩
        rw [step, herror]
        rfl

/-- A presentation never panics, and is all or nothing. -/
structure PresentsSafely (surface : MemorySurface) (pixels : List UInt8) : Prop where
  returns : ∃ result surface', surface.present pixels = some (result, surface')
  unchanged : ∀ err surface', surface.present pixels = some (.error err, surface') →
    surface'.resolution = surface.resolution ∧ surface'.pixels = surface.pixels
  exact : ∀ surface', surface.present pixels = some (.ok (), surface') → surface'.pixels = pixels

theorem presentsSafely_of_sized {surface : MemorySurface} (hsized : Sized surface)
    (pixels : List UInt8) : PresentsSafely surface pixels := by
  by_cases hlength : pixels.length = bufLen surface.resolution
  · have hok := present_of_length_eq hsized hlength
    constructor
    · exact ⟨_, _, hok⟩
    · rintro err surface' herror
      cases hok.symm.trans herror
    · rintro surface' hok'
      cases hok.symm.trans hok'
      rfl
  · obtain ⟨err, herror⟩ := present_of_length_ne hlength
    constructor
    · exact ⟨_, _, herror⟩
    · rintro err' surface' herror'
      cases herror.symm.trans herror'
      exact ⟨rfl, rfl⟩
    · rintro surface' hok
      cases herror.symm.trans hok

/-- **A surface presents safely.** Whatever a new surface has been asked to do, nothing has
panicked, and the next presentation does not panic either and is all or nothing. -/
theorem presents_safely (displayId : DisplayId) (res : Resolution) (calls : List Call) :
    ∃ surface, attempt step (new displayId res) calls = some surface ∧
      (∀ pixels, PresentsSafely surface pixels) ∧
      ∀ res',
        (surface.resize res').2.pixels.length = bufLen (surface.resize res').2.resolution := by
  obtain ⟨surface, hrun, hsized⟩ := attempt_invariant sized_step calls (sized_new displayId res)
  exact ⟨surface, hrun, presentsSafely_of_sized hsized, sized_resize surface⟩

end QuicView.MemorySurface
