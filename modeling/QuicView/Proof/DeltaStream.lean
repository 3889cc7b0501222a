import QuicView.Codec.Delta
import QuicView.Library.Differencing

/-!
# What survives a delta stream

The codec is the XOR instance of differencing against a reference. A keyframe forced by the encoder
alone gets through exactly when the decoder's stale reference leaves it untouched.
-/

namespace QuicView

/-! ### XOR as a difference -/

def xorBytes (a b : Bytes) : Bytes := List.zipWith (fun x y => x ^^^ y) a b

theorem length_xorBytes {a b : Bytes} (hlen : b.length = a.length) :
    (xorBytes a b).length = a.length := by
  simp [xorBytes, hlen]

theorem xorBytes_xorBytes :
    ∀ (a b : Bytes), b.length = a.length → xorBytes (xorBytes a b) b = a := by
  intro a
  induction a with
  | nil => intro b _; simp [xorBytes]
  | cons x a ih =>
      intro b hlen
      cases b with
      | nil => simp at hlen
      | cons y b =>
          have htail := ih b (by simpa using hlen)
          have hhead : x ^^^ y ^^^ y = x := by rw [UInt8.xor_assoc, UInt8.xor_self, UInt8.xor_zero]
          simpa [xorBytes, hhead] using htail

theorem xorBytes_eq_self_iff :
    ∀ (a b : Bytes), b.length = a.length → (xorBytes a b = a ↔ ∀ y ∈ b, y = 0) := by
  intro a
  induction a with
  | nil =>
      intro b hlen
      simp [List.length_eq_zero_iff.mp hlen, xorBytes]
  | cons x a ih =>
      intro b hlen
      cases b with
      | nil => simp at hlen
      | cons y b =>
          have htail := ih b (by simpa using hlen)
          have hhead : x ^^^ y = x ↔ y = 0 := by
            constructor
            · intro hxor
              have hcancel := congrArg (fun z => x ^^^ z) hxor
              simpa [← UInt8.xor_assoc] using hcancel
            · rintro rfl
              exact UInt8.xor_zero
          simp only [xorBytes, List.zipWith_cons_cons, List.cons.injEq, List.forall_mem_cons] at *
          rw [hhead, htail]

def xorDifferencing : Differencing Bytes Nat where
  shape := List.length
  diff := xorBytes
  shape_diff := fun _ _ hlen => length_xorBytes hlen
  diff_diff := fun _ _ hlen => xorBytes_xorBytes _ _ hlen

theorem xorDifferencing_commutes : xorDifferencing.Commutes where
  diff_comm := fun _ _ => List.zipWith_comm_of_comm UInt8.xor_comm
  diff_assoc := by
    intro a
    induction a with
    | nil => intro b c; rfl
    | cons x a ih =>
        intro b c
        cases b with
        | nil => rfl
        | cons y b =>
            cases c with
            | nil => rfl
            | cons z c => exact congrArg₂ List.cons (UInt8.xor_assoc x y z) (ih b c)

/-! ### The codec computes it -/

theorem DeltaCodec.encode_eq (codec : DeltaCodec) (raw : Bytes) :
    codec.encode raw = (.ok (xorDifferencing.transform codec.prevFrame raw), ⟨some raw⟩) := by
  rcases codec with ⟨_ | prev⟩
  · rfl
  · by_cases hlen : prev.length = raw.length
    · simp [encode, Differencing.transform, xorDifferencing, xorBytes, hlen]
    · simp [encode, Differencing.transform, xorDifferencing, hlen]

theorem DeltaCodec.decode_eq (codec : DeltaCodec) (compressed : Bytes) :
    codec.decode compressed
      = (.ok (xorDifferencing.transform codec.prevFrame compressed),
          ⟨some (xorDifferencing.transform codec.prevFrame compressed)⟩) := by
  rcases codec with ⟨_ | prev⟩
  · rfl
  · by_cases hlen : prev.length = compressed.length
    · simp [decode, Differencing.transform, xorDifferencing, xorBytes, hlen]
    · simp [decode, Differencing.transform, xorDifferencing, hlen]

theorem DeltaCodec.reset_eq_new (codec : DeltaCodec) : codec.reset = DeltaCodec.new := rfl

def passage (encoderRef decoderRef : Option Bytes) (frame : Bytes) : Delivery :=
  let payload := xorDifferencing.transform encoderRef frame
  let decoded := xorDifferencing.transform decoderRef payload
  { frame, payload, decoded, encoderRef := some frame, decoderRef := some decoded }

theorem transmit_cons (encoder decoder : DeltaCodec) (frame : Bytes) (frames : List Bytes) :
    transmit encoder decoder (frame :: frames)
      = (transmit ⟨some frame⟩ ⟨(passage encoder.prevFrame decoder.prevFrame frame).decoderRef⟩
          frames).map (passage encoder.prevFrame decoder.prevFrame frame :: ·) := by
  simp only [transmit, DeltaCodec.encode_eq, DeltaCodec.decode_eq]
  rfl

theorem transmit_eq_relay (frames : List Bytes) :
    ∀ encoder decoder : DeltaCodec, ∃ log, transmit encoder decoder frames = .ok log
      ∧ log.map Delivery.frame = frames
      ∧ log.map Delivery.decoded
          = xorDifferencing.relay encoder.prevFrame decoder.prevFrame frames := by
  induction frames with
  | nil => exact fun _ _ => ⟨[], rfl, rfl, rfl⟩
  | cons frame frames ih =>
      intro encoder decoder
      let first := passage encoder.prevFrame decoder.prevFrame frame
      obtain ⟨later, hlater, hframes, hdecoded⟩ := ih ⟨some frame⟩ ⟨first.decoderRef⟩
      refine ⟨first :: later, ?_, ?_, ?_⟩
      · rw [transmit_cons, hlater]
        rfl
      · rw [List.map_cons, hframes]
        rfl
      · rw [List.map_cons, hdecoded]
        rfl

/-! ### Lockstep -/

/-- What a faithful passage leaves behind: the frame decoded, a payload of its length, and the two
ends referring to the same frame. -/
structure Delivery.Faithful (delivery : Delivery) : Prop where
  decoded : delivery.decoded = delivery.frame
  payload_length : delivery.payload.length = delivery.frame.length
  refs : delivery.encoderRef = delivery.decoderRef

theorem transmit_faithful (frames : List Bytes) :
    ∀ codec : DeltaCodec, ∃ log, transmit codec codec frames = .ok log
      ∧ log.map Delivery.frame = frames ∧ ∀ delivery ∈ log, delivery.Faithful := by
  induction frames with
  | nil => exact fun _ => ⟨[], rfl, rfl, by simp⟩
  | cons frame frames ih =>
      intro codec
      let first := passage codec.prevFrame codec.prevFrame frame
      have hfirst : first.decoded = frame :=
        xorDifferencing.transform_transform codec.prevFrame frame
      have hrefs : first.decoderRef = some frame := congrArg some hfirst
      obtain ⟨later, hlater, hframes, hfaithful⟩ := ih ⟨some frame⟩
      refine ⟨first :: later, ?_, ?_, List.forall_mem_cons.mpr ⟨?_, hfaithful⟩⟩
      · rw [transmit_cons, hrefs, hlater]
        rfl
      · rw [List.map_cons, hframes]
        rfl
      · exact ⟨hfirst, xorDifferencing.shape_transform codec.prevFrame frame, hrefs.symm⟩

/-- **Delta streaming is lossless in lockstep.** An encoder and a decoder reset at the same point,
whatever either did before, exchange every sequence of frames exactly. -/
theorem transmit_reset_lossless (encoder decoder : DeltaCodec) (frames : List Bytes) :
    ∃ log, transmit encoder.reset decoder.reset frames = .ok log
      ∧ log.map Delivery.frame = frames ∧ log.map Delivery.decoded = frames
      ∧ ∀ delivery ∈ log, delivery.payload.length = delivery.frame.length
          ∧ delivery.encoderRef = delivery.decoderRef := by
  rw [DeltaCodec.reset_eq_new, DeltaCodec.reset_eq_new]
  obtain ⟨log, hlog, hframes, hfaithful⟩ := transmit_faithful frames DeltaCodec.new
  refine ⟨log, hlog, hframes, ?_, fun delivery hmem => ?_⟩
  · rw [← hframes]
    exact List.map_congr_left fun delivery hmem => (hfaithful delivery hmem).decoded
  · exact ⟨(hfaithful delivery hmem).payload_length, (hfaithful delivery hmem).refs⟩

/-! ### A keyframe the decoder is not told of -/

def DecodesExactly (encoder decoder : DeltaCodec) (frames : List Bytes) : Prop :=
  ∃ log, transmit encoder decoder frames = .ok log ∧ log.map Delivery.decoded = frames

/-- The decoder's reference leaves a raw frame of length `n` alone: there is none, it has another
length, or it is black. -/
def ReferenceHarmless (ref : Option Bytes) (n : Nat) : Prop :=
  ∀ prev, ref = some prev → prev.length = n → ∀ y ∈ prev, y = 0

theorem decodesExactly_iff_relay (encoder decoder : DeltaCodec) (frames : List Bytes) :
    DecodesExactly encoder decoder frames
      ↔ xorDifferencing.relay encoder.prevFrame decoder.prevFrame frames = frames := by
  obtain ⟨log, hlog, _, hdecoded⟩ := transmit_eq_relay frames encoder decoder
  constructor
  · rintro ⟨log', hlog', hexact⟩
    obtain rfl : log = log' := by
      rw [hlog] at hlog'
      exact Except.ok.inj hlog'
    rw [← hdecoded, hexact]
  · intro hrelay
    exact ⟨log, hlog, hdecoded.trans hrelay⟩

theorem transform_eq_self_iff_harmless (ref : Option Bytes) (frame : Bytes) :
    xorDifferencing.transform ref frame = frame ↔ ReferenceHarmless ref frame.length := by
  rw [Differencing.transform_eq_self_iff]
  constructor
  · intro hsame prev href hlen
    exact (xorBytes_eq_self_iff frame prev hlen).mp (hsame prev href hlen)
  · intro hharmless prev href hlen
    exact (xorBytes_eq_self_iff frame prev hlen).mpr (hharmless prev href hlen)

/-- **When a forced keyframe recovers the viewer.** After the encoder alone is reset, it and every
frame after it are decoded exactly, exactly when the reference that the decoder is left with is
absent, of another length, or all zeros. -/
theorem keyframe_decodes_iff_reference_harmless (encoder decoder : DeltaCodec)
    (received : List Bytes) (frame : Bytes) :
    (∀ following, DecodesExactly encoder.reset (decoder.decodeAll received) (frame :: following))
      ↔ ReferenceHarmless (decoder.decodeAll received).prevFrame frame.length := by
  rw [← transform_eq_self_iff_harmless]
  constructor
  · intro hexact
    have hrelay := (decodesExactly_iff_relay _ _ _).mp (hexact [])
    exact (xorDifferencing.relay_cons_eq_iff _ _ _ _).mp hrelay
  · intro hsame following
    rw [decodesExactly_iff_relay]
    exact (xorDifferencing.relay_cons_eq_iff _ _ _ _).mpr hsame

/-- A viewer that has decoded one frame does not recover from a keyframe of the same length: it
XORs the raw pixels of the second frame into the first. -/
theorem keyframe_not_recovered_after_one_frame :
    ¬ ∀ (encoder decoder : DeltaCodec) (received : List Bytes) (frame : Bytes)
        (following : List Bytes),
        DecodesExactly encoder.reset (decoder.decodeAll received) (frame :: following) := by
  intro hall
  have hexact := hall DeltaCodec.new DeltaCodec.new [[1, 2, 3, 4]] [5, 6, 7, 8] []
  have hrelay := (decodesExactly_iff_relay _ _ _).mp hexact
  revert hrelay
  decide

/-! ### Ends that have drifted apart -/

/-- **A lost frame leaves a mask.** Frames of the length of both references come out with the XOR of
the two added, and from the first frame of another length on every frame comes out exactly. -/
theorem transmit_masked_until_resize (encoderRef decoderRef : Bytes)
    (hlen : decoderRef.length = encoderRef.length) (same more : List Bytes)
    (hsame : ∀ frame ∈ same, frame.length = encoderRef.length)
    (hmore : ∀ frame ∈ more.head?, frame.length ≠ encoderRef.length) :
    ∃ log, transmit ⟨some encoderRef⟩ ⟨some decoderRef⟩ (same ++ more) = .ok log
      ∧ log.map Delivery.frame = same ++ more
      ∧ log.map Delivery.decoded
          = same.map (fun frame => xorBytes frame (xorBytes encoderRef decoderRef)) ++ more := by
  obtain ⟨log, hlog, hframes, hdecoded⟩ :=
    transmit_eq_relay (same ++ more) ⟨some encoderRef⟩ ⟨some decoderRef⟩
  refine ⟨log, hlog, hframes, ?_⟩
  rw [hdecoded]
  exact xorDifferencing_commutes.relay_until_other_shape hlen hsame hmore

theorem transmit_masked_until_resize_lost_frame :
    ∃ log, transmit ⟨some [1, 2]⟩ ⟨some [1, 3]⟩ ([[5, 6], [7, 8]] ++ [[9], [5, 6]]) = .ok log
      ∧ log.map Delivery.frame = [[5, 6], [7, 8]] ++ [[9], [5, 6]]
      ∧ log.map Delivery.decoded
          = [[5, 6], [7, 8]].map (fun frame => xorBytes frame (xorBytes [1, 2] [1, 3]))
            ++ [[9], [5, 6]] :=
  transmit_masked_until_resize [1, 2] [1, 3] rfl [[5, 6], [7, 8]] [[9], [5, 6]]
    (by decide) (by decide)

end QuicView
