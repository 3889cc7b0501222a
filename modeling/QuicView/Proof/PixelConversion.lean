import QuicView.Codec.Convert

namespace QuicView

open Chunks

theorem bgraToRgba_error_iff (buf : Bytes) :
    (∃ err, (bgraToRgba buf).1 = .error err) ↔ buf.length % 4 ≠ 0 := by
  unfold bgraToRgba
  split
  next hcut => exact ⟨fun _ => hcut, fun _ => ⟨_, rfl⟩⟩
  next hwhole =>
    refine ⟨?_, fun hcut => absurd hcut hwhole⟩
    rintro ⟨_, herror⟩
    cases herror

theorem bgraToRgba_of_cut {buf : Bytes} (hcut : buf.length % 4 ≠ 0) :
    (bgraToRgba buf).2 = buf := by
  rw [bgraToRgba, if_pos hcut]

section

variable {buf : Bytes} {n : ℕ} (hlength : buf.length = 4 * n)

include hlength

theorem bgraToRgba_of_whole :
    bgraToRgba buf = (.ok (), modifyChunks 4 (fun pixel => pixel.swap 0 2) buf) :=
  if_neg (by omega)

theorem length_bgraToRgba : (bgraToRgba buf).2.length = 4 * n := by
  rw [bgraToRgba_of_whole hlength, length_modifyChunks, hlength]

theorem lt_length_chunksExact {i : ℕ} (hi : i < n) : i < (chunksExact 4 buf).length := by
  rw [length_chunksExact]
  omega

theorem color_bgraToRgba {i c : ℕ} (hi : i < n) (hc : c < 3) :
    (bgraToRgba buf).2[4 * i + c]? = buf[4 * i + 2 - c]? := by
  have hpixel := lt_length_chunksExact hlength hi
  have hfrom : 4 * i + 2 - c = 4 * i + (2 - c) := by omega
  rw [bgraToRgba_of_whole hlength, getElem?_modifyChunks _ _ hpixel (by omega), hfrom,
    ← some_getElem_chunksExact buf hpixel (by omega)]
  obtain rfl | rfl | rfl : c = 0 ∨ c = 1 ∨ c = 2 := by omega
  all_goals simp

theorem alpha_bgraToRgba {i : ℕ} (hi : i < n) :
    (bgraToRgba buf).2[4 * i + 3]? = buf[4 * i + 3]? := by
  have hpixel := lt_length_chunksExact hlength hi
  rw [bgraToRgba_of_whole hlength, getElem?_modifyChunks _ _ hpixel (by decide),
    ← some_getElem_chunksExact buf hpixel (by decide)]
  simp

theorem bgraToRgba_bgraToRgba : bgraToRgba (bgraToRgba buf).2 = (.ok (), buf) := by
  rw [bgraToRgba_of_whole (length_bgraToRgba hlength), bgraToRgba_of_whole hlength,
    modifyChunks_modifyChunks (by decide) fun pixel => Vector.swap_swap ..]

theorem rgbaToRgb_of_whole :
    rgbaToRgb buf = .ok (ofChunks
      ((chunksExact 4 buf).map fun pixel => (pixel.take 3 : Vector UInt8 3))) :=
  if_neg (by omega)

end

structure Converts (n : ℕ) (bgra rgba : Bytes) : Prop where
  length : rgba.length = 4 * n
  color : ∀ i c, i < n → c < 3 → rgba[4 * i + c]? = bgra[4 * i + 2 - c]?
  alpha : ∀ i, i < n → rgba[4 * i + 3]? = bgra[4 * i + 3]?
  again : bgraToRgba rgba = (.ok (), bgra)
  rgb : ∃ rgb, rgbaToRgb rgba = .ok rgb ∧ rgb.length = 3 * n ∧ ∀ i, i < n →
    rgb[3 * i]? = bgra[4 * i + 2]? ∧ rgb[3 * i + 1]? = bgra[4 * i + 1]? ∧
      rgb[3 * i + 2]? = bgra[4 * i]?

theorem rgb_bgraToRgba {buf : Bytes} {n : ℕ} (hlength : buf.length = 4 * n) :
    ∃ rgb, rgbaToRgb (bgraToRgba buf).2 = .ok rgb ∧ rgb.length = 3 * n ∧
      ∀ i c, i < n → c < 3 → rgb[3 * i + c]? = buf[4 * i + 2 - c]? := by
  have hlength' := length_bgraToRgba hlength
  refine ⟨_, rgbaToRgb_of_whole hlength', ?_, fun i c hi hc => ?_⟩
  · rw [length_ofChunks, List.length_map, length_chunksExact, hlength']
    omega
  · have hpixel := lt_length_chunksExact hlength' hi
    rw [← color_bgraToRgba hlength hi hc, getElem?_ofChunks _ _ hc, List.getElem?_map,
      List.getElem?_eq_getElem hpixel, ← some_getElem_chunksExact _ hpixel (by omega)]
    simp

/-- **The conversions are exact on every pixel.** A buffer that is not whole pixels is refused and
left as it was, and of any other every byte is where it belongs. -/
theorem conversions_exact (buf : Bytes) :
    ((∃ err, (bgraToRgba buf).1 = .error err) ↔ buf.length % 4 ≠ 0) ∧
      ((∃ err, (bgraToRgba buf).1 = .error err) → (bgraToRgba buf).2 = buf) ∧
      ∀ n, buf.length = 4 * n → Converts n buf (bgraToRgba buf).2 := by
  refine ⟨bgraToRgba_error_iff buf, fun herror => ?_, fun n hlength => ?_⟩
  · exact bgraToRgba_of_cut ((bgraToRgba_error_iff buf).mp herror)
  · obtain ⟨rgb, hrgb, hcount, hcolor⟩ := rgb_bgraToRgba hlength
    constructor
    · exact length_bgraToRgba hlength
    · exact fun i c hi hc => color_bgraToRgba hlength hi hc
    · exact fun i hi => alpha_bgraToRgba hlength hi
    · exact bgraToRgba_bgraToRgba hlength
    · exact ⟨rgb, hrgb, hcount, fun i hi =>
        ⟨hcolor i 0 hi (by decide), hcolor i 1 hi (by decide), hcolor i 2 hi (by decide)⟩⟩

end QuicView
