import Mathlib.Tactic.Ring
import QuicView.Capture.Gdi
import QuicView.Display.Surface

/-!
# The size of a frame

The memory surface and the GDI source compute the size of a frame again, each for itself and in 32
bits. The test source takes it from the pixel format, so its frames always have that size.
-/

namespace QuicView

def Resolution.bytes (res : Resolution) : ℕ := 4 * res.width.toNat * res.height.toNat

section Sizes

variable {res : Resolution}

theorem toNat_pixelCount : res.pixelCount.toNat = res.width.toNat * res.height.toNat := by
  have hwidth := res.width.toNat_lt
  have hheight := res.height.toNat_lt
  have hproduct : res.width.toNat * res.height.toNat < 2 ^ 32 * 2 ^ 32 :=
    Nat.mul_lt_mul'' hwidth hheight
  rw [Resolution.pixelCount, UInt64.toNat_mul, UInt32.toNat_toUInt64, UInt32.toNat_toUInt64]
  exact Nat.mod_eq_of_lt hproduct

theorem toNat_pixelCount_mul (bytesPerPixel : UInt64) :
    (res.pixelCount * bytesPerPixel).toNat
      = bytesPerPixel.toNat * res.width.toNat * res.height.toNat % 2 ^ 64 := by
  rw [UInt64.toNat_mul, toNat_pixelCount, Nat.mul_comm, Nat.mul_assoc]

theorem toNat_bufferSize (hfits : res.bytes < 2 ^ 64) :
    (PixelFormat.bgra8.bufferSize res).toNat = res.bytes := by
  calc (PixelFormat.bgra8.bufferSize res).toNat
    _ = res.bytes % 2 ^ 64 := toNat_pixelCount_mul 4
    _ = res.bytes := Nat.mod_eq_of_lt hfits

theorem toNat_product_eq_iff :
    (res.width * res.height * 4).toNat = res.bytes ↔ res.bytes < 2 ^ 32 := by
  have hbytes : res.width.toNat * res.height.toNat * 4 = res.bytes := by
    rw [Resolution.bytes]
    ring
  have hproduct : (res.width * res.height * 4).toNat = res.bytes % 2 ^ 32 := by
    rw [UInt32.toNat_mul, UInt32.toNat_mul, ← hbytes]
    exact Nat.mod_mul_mod ..
  rw [hproduct]
  exact Nat.mod_eq_iff_lt (by decide)

end Sizes

namespace MemorySurface

theorem length_pixels_new (displayId : DisplayId) (res : Resolution) :
    (new displayId res).pixels.length = bufLen res :=
  List.length_replicate

theorem length_pixels_resize (surface : MemorySurface) (res : Resolution) :
    (surface.resize res).2.pixels.length = bufLen res := by
  rw [resize, pixels, List.length_append, List.length_take, List.length_replicate]
  omega

theorem present_eq_error_iff (surface : MemorySurface) (pixels : List UInt8) :
    (∃ err surface', surface.present pixels = some (.error err, surface'))
      ↔ pixels.length ≠ bufLen surface.resolution := by
  constructor
  · rintro ⟨err, surface', herror⟩ hlength
    rw [present, if_neg (not_not.mpr hlength)] at herror
    obtain ⟨buffer, -, hok⟩ := Option.bind_eq_some_iff.mp herror
    cases hok
  · intro hlength
    exact ⟨_, _, if_pos hlength⟩

end MemorySurface

namespace GdiCaptureSource

theorem length_data_grab {gdi : Gdi} {source : GdiCaptureSource} {frame : FrameBuffer}
    (hgrab : (source.grab gdi).1 = .ok (some frame)) :
    frame.data.length = source.allocate.length := by
  unfold grab at hgrab
  dsimp only at hgrab
  split_ifs at hgrab
  -- Every exit but the last is an error.
  cases hgrab
  exact (gdi.getDIBits _ _ _ source.allocate).2.property

end GdiCaptureSource

theorem TestCaptureSource.length_data_grab {source : TestCaptureSource} {frame : FrameBuffer}
    (hgrab : source.grab.1 = .ok (some frame)) (hfits : source.resolution.bytes < 2 ^ 64) :
    frame.data.length = source.resolution.bytes := by
  unfold grab at hgrab
  split_ifs at hgrab
  cases hgrab
  rw [List.length_replicate, toNat_bufferSize hfits]

/-- Every computation of the size of a frame gives what the pixel format does, and that is the
number of its bytes. -/
structure SizesAgree (res : Resolution) : Prop where
  exact : (PixelFormat.bgra8.bufferSize res).toNat = res.bytes
  new : ∀ displayId,
    (MemorySurface.new displayId res).pixels.length = (PixelFormat.bgra8.bufferSize res).toNat
  resize : ∀ surface : MemorySurface,
    (surface.resize res).2.pixels.length = (PixelFormat.bgra8.bufferSize res).toNat
  present : ∀ (surface : MemorySurface) (pixels : List UInt8), surface.resolution = res →
    ((∃ err surface', surface.present pixels = some (.error err, surface'))
      ↔ pixels.length ≠ (PixelFormat.bgra8.bufferSize res).toNat)
  allocate : ∀ source : GdiCaptureSource, source.resolution = res →
    source.allocate.length = (PixelFormat.bgra8.bufferSize res).toNat
  grab : ∀ (gdi : Gdi) (source : GdiCaptureSource) (frame : FrameBuffer),
    source.resolution = res → (source.grab gdi).1 = .ok (some frame) →
    frame.data.length = (PixelFormat.bgra8.bufferSize res).toNat

/-- **When the sizes of a frame agree.** The computations part exactly where the bytes of a frame do
not fit 32 bits. -/
theorem frame_sizes_agree_iff (res : Resolution) (hfits : res.bytes < 2 ^ 64) :
    SizesAgree res ↔ res.bytes < 2 ^ 32 := by
  constructor
  · intro hagree
    rw [← toNat_product_eq_iff]
    calc (res.width * res.height * 4).toNat
      _ = (MemorySurface.new .primary res).pixels.length :=
        (MemorySurface.length_pixels_new .primary res).symm
      _ = (PixelFormat.bgra8.bufferSize res).toNat := hagree.new .primary
      _ = res.bytes := toNat_bufferSize hfits
  · intro hlt
    have hsize : (PixelFormat.bgra8.bufferSize res).toNat = res.bytes := toNat_bufferSize hfits
    have hbufLen : MemorySurface.bufLen res = res.bytes := toNat_product_eq_iff.mpr hlt
    have hallocate : ∀ source : GdiCaptureSource, source.resolution = res →
        source.allocate.length = res.bytes := by
      rintro source rfl
      rw [GdiCaptureSource.allocate, List.length_replicate]
      exact hbufLen
    constructor <;> rw [hsize]
    · intro displayId
      rw [MemorySurface.length_pixels_new, hbufLen]
    · intro surface
      rw [MemorySurface.length_pixels_resize, hbufLen]
    · intro surface pixels hres
      rw [MemorySurface.present_eq_error_iff, hres, hbufLen]
    · exact hallocate
    · intro gdi source frame hres hgrab
      rw [GdiCaptureSource.length_data_grab hgrab, hallocate source hres]

theorem frame_sizes_agree_iff_full_hd : SizesAgree ⟨1920, 1080⟩ :=
  (frame_sizes_agree_iff ⟨1920, 1080⟩ (by decide)).mpr (by decide)

theorem frame_sizes_part :
    ¬ ∀ res : Resolution, res.bytes < 2 ^ 64 → SizesAgree res := by
  intro hall
  have hnew := (hall ⟨65536, 16384⟩ (by decide)).new .primary
  rw [MemorySurface.length_pixels_new] at hnew
  revert hnew
  decide

end QuicView
