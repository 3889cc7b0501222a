import QuicView.Proof.FrameSizes

namespace QuicView

/-- The bytes of a frame. The planar format has a pair of colour bytes for every block of two by two
pixels, the blocks that an edge cuts included. -/
def PixelFormat.bytesNeeded (fmt : PixelFormat) (res : Resolution) : ℕ :=
  let w := res.width.toNat
  let h := res.height.toNat
  match fmt with
  | .bgra8 => 4 * w * h
  | .rgba8 => 4 * w * h
  | .rgb8 => 3 * w * h
  | .nv12 => w * h + 2 * ((w + 1) / 2) * ((h + 1) / 2)

/-- No edge cuts a block. -/
def Resolution.WholeBlocks (res : Resolution) : Prop :=
  (res.width.toNat % 2 = 0 ∧ res.height.toNat % 2 = 0) ∨ res.width = 0 ∨ res.height = 0

theorem half_le_blocks (w h : ℕ) :
    w * h / 2 ≤ 2 * ((w + 1) / 2) * ((h + 1) / 2) ∧
      (w * h / 2 = 2 * ((w + 1) / 2) * ((h + 1) / 2)
        ↔ (w % 2 = 0 ∧ h % 2 = 0) ∨ w = 0 ∨ h = 0) := by
  have hhalf : ∀ k r, r < 2 → (2 * k + r) / 2 = k := by omega
  have hcut : ∀ k, (2 * k + 1 + 1) / 2 = k + 1 := by omega
  obtain ⟨a, rfl | rfl⟩ := w.even_or_odd' <;> obtain ⟨b, rfl | rfl⟩ := h.even_or_odd'
  · have hpixels : 2 * a * (2 * b) = 2 * (2 * (a * b)) + 0 := by ring
    have hblocks : 2 * a * b = 2 * (a * b) := by ring
    rw [hpixels, hhalf _ 0 (by decide), hhalf a 1 (by decide), hhalf b 1 (by decide), hblocks]
    omega
  · have hpixels : 2 * a * (2 * b + 1) = 2 * (2 * (a * b) + a) + 0 := by ring
    have hblocks : 2 * a * (b + 1) = 2 * (a * b) + 2 * a := by ring
    rw [hpixels, hhalf _ 0 (by decide), hhalf a 1 (by decide), hcut, hblocks]
    omega
  · have hpixels : (2 * a + 1) * (2 * b) = 2 * (2 * (a * b) + b) + 0 := by ring
    have hblocks : 2 * (a + 1) * b = 2 * (a * b) + 2 * b := by ring
    rw [hpixels, hhalf _ 0 (by decide), hcut, hhalf b 1 (by decide), hblocks]
    omega
  · have hpixels : (2 * a + 1) * (2 * b + 1) = 2 * (2 * (a * b) + a + b) + 1 := by ring
    have hblocks : 2 * (a + 1) * (b + 1) = 2 * (a * b) + 2 * a + 2 * b + 2 := by ring
    rw [hpixels, hhalf _ 1 (by decide), hcut, hcut, hblocks]
    omega

section Formats

variable (res : Resolution)

theorem packed_exact_iff (bytesPerPixel : UInt64) :
    (res.pixelCount * bytesPerPixel).toNat
        = bytesPerPixel.toNat * res.width.toNat * res.height.toNat
      ↔ bytesPerPixel.toNat * res.width.toNat * res.height.toNat < 2 ^ 64 := by
  rw [toNat_pixelCount_mul]
  exact Nat.mod_eq_iff_lt (by decide)

theorem toNat_planar :
    (PixelFormat.nv12.bufferSize res).toNat
      = (res.width.toNat * res.height.toNat + res.width.toNat * res.height.toNat / 2) % 2 ^ 64 := by
  rw [PixelFormat.bufferSize, UInt64.toNat_add, UInt64.toNat_div, toNat_pixelCount]
  rfl

theorem planar_exact_iff :
    (PixelFormat.nv12.bufferSize res).toNat = PixelFormat.nv12.bytesNeeded res
      ↔ PixelFormat.nv12.bytesNeeded res < 2 ^ 64 ∧ res.WholeBlocks := by
  have hblocks := half_le_blocks res.width.toNat res.height.toNat
  have hzero : ∀ n : UInt32, n = 0 ↔ n.toNat = 0 := fun n => UInt32.toNat_inj.symm
  rw [toNat_planar, Resolution.WholeBlocks, hzero, hzero, ← hblocks.2]
  unfold PixelFormat.bytesNeeded
  dsimp only
  omega

/-- **When the buffer size is exact.** It is what the format needs exactly when 64 bits hold that,
and, in the planar format, no edge cuts a block. -/
theorem bufferSize_exact_iff (fmt : PixelFormat) :
    (fmt.bufferSize res).toNat = fmt.bytesNeeded res
      ↔ fmt.bytesNeeded res < 2 ^ 64 ∧ (fmt = .nv12 → res.WholeBlocks) := by
  cases fmt with
  | nv12 => simpa using planar_exact_iff res
  | bgra8 => simpa [PixelFormat.bufferSize, PixelFormat.bytesNeeded] using packed_exact_iff res 4
  | rgba8 => simpa [PixelFormat.bufferSize, PixelFormat.bytesNeeded] using packed_exact_iff res 4
  | rgb8 => simpa [PixelFormat.bufferSize, PixelFormat.bytesNeeded] using packed_exact_iff res 3

theorem bufferSize_falls_short :
    (PixelFormat.nv12.bufferSize ⟨1, 1⟩).toNat = 1 ∧ PixelFormat.nv12.bytesNeeded ⟨1, 1⟩ = 3 ∧
      (PixelFormat.bgra8.bufferSize ⟨2147483648, 2147483648⟩).toNat = 0 ∧
      PixelFormat.bgra8.bytesNeeded ⟨2147483648, 2147483648⟩ = 2 ^ 64 := by
  decide

end Formats

end QuicView
