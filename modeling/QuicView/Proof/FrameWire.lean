import QuicView.Protocol.Frame

namespace QuicView

open Wire

theorem FrameKind.fromU8_toU8 (kind : FrameKind) : FrameKind.fromU8 kind.toU8 = .ok kind := by
  cases kind <;> rfl

theorem pixelFormatFromU8_toU8 (fmt : PixelFormat) :
    pixelFormatFromU8 (pixelFormatToU8 fmt) = .ok fmt := by
  cases fmt <;> rfl

theorem FrameHeader.encode_eq_append (header : FrameHeader) (dst : Bytes) :
    header.encode dst = dst ++ header.encode [] := by
  simp [encode, putU8, putU16, putU32]

theorem FrameHeader.length_encode (header : FrameHeader) (dst : Bytes) :
    (header.encode dst).length = dst.length + frameHeaderSize := by
  simp [encode, putU8, putU16, putU32, frameHeaderSize]

/-! ### What the decoder does with the fields -/

/-- The fields of a header as they stand on the wire, none of them checked. -/
structure RawHeader where
  kind : UInt8
  displayId : UInt32
  sequence : UInt32
  width : UInt32
  height : UInt32
  pixelFormat : UInt8
  reserved : UInt16
  payloadLen : UInt32

namespace RawHeader

def bytes (raw : RawHeader) : Bytes :=
  raw.kind :: (bigEndian 4 raw.displayId.toNat ++ (bigEndian 4 raw.sequence.toNat
    ++ (bigEndian 4 raw.width.toNat ++ (bigEndian 4 raw.height.toNat
      ++ raw.pixelFormat :: (bigEndian 2 raw.reserved.toNat ++ bigEndian 4 raw.payloadLen.toNat)))))

variable (raw : RawHeader) (rest : Bytes)

theorem length_bytes : raw.bytes.length = frameHeaderSize := by
  simp [bytes, frameHeaderSize]

def header (kind : FrameKind) (fmt : PixelFormat) : FrameHeader where
  kind := kind
  displayId := ⟨raw.displayId⟩
  sequence := raw.sequence
  resolution := ⟨raw.width, raw.height⟩
  pixelFormat := fmt
  payloadLen := raw.payloadLen

theorem encode_header {kind : FrameKind} {fmt : PixelFormat} (hkind : raw.kind = kind.toU8)
    (hfmt : raw.pixelFormat = pixelFormatToU8 fmt) :
    (raw.header kind fmt).encode [] = { raw with reserved := 0 }.bytes := by
  simp [FrameHeader.encode, header, bytes, putU8, putU16, putU32, hkind, hfmt]

theorem parse_decode :
    parse FrameHeader.decode (raw.bytes ++ rest)
      = match FrameKind.fromU8 raw.kind, pixelFormatFromU8 raw.pixelFormat with
        | .error error, _ => some (.error error, raw.bytes.tail ++ rest)
        | .ok _, .error error =>
            some (.error error,
              bigEndian 2 raw.reserved.toNat ++ (bigEndian 4 raw.payloadLen.toNat ++ rest))
        | .ok kind, .ok fmt =>
            if maxPayload < raw.payloadLen.toNat
            then some (.error (.payloadTooLarge raw.payloadLen.toNat maxPayload), rest)
            else some (.ok (raw.header kind fmt), rest) := by
  have hfits : ¬ (raw.bytes ++ rest).length < frameHeaderSize := by
    rw [List.length_append, length_bytes]
    omega
  rw [FrameHeader.decode, parse_remaining_bind, if_neg hfits]
  cases hkind : FrameKind.fromU8 raw.kind with
  | error error =>
      simp only [bytes, List.cons_append, List.append_assoc, parse_getU8_cons_bind,
        hkind, parse_check_error_bind, List.tail_cons]
  | ok kind =>
      cases hfmt : pixelFormatFromU8 raw.pixelFormat with
      | error error =>
          simp only [bytes, List.cons_append, List.append_assoc, parse_getU8_cons_bind,
            parse_getU32_append_bind, hkind, hfmt, parse_check_ok_bind, parse_check_error_bind]
      | ok fmt =>
          simp only [bytes, List.cons_append, List.append_assoc, parse_getU8_cons_bind,
            parse_getU16_append_bind, parse_getU32_append_bind, hkind, hfmt, parse_check_ok_bind]
          split <;> rfl

end RawHeader

/-- Decoding an encoded header comes down to the one check that can still fail. -/
theorem FrameHeader.parse_decode_encode (header : FrameHeader) (rest : Bytes) :
    parse FrameHeader.decode (header.encode [] ++ rest)
      = if maxPayload < header.payloadLen.toNat
        then some (.error (.payloadTooLarge header.payloadLen.toNat maxPayload), rest)
        else some (.ok header, rest) := by
  let raw : RawHeader :=
    { kind := header.kind.toU8
      displayId := header.displayId.id
      sequence := header.sequence
      width := header.resolution.width
      height := header.resolution.height
      pixelFormat := pixelFormatToU8 header.pixelFormat
      reserved := 0
      payloadLen := header.payloadLen }
  have hencode : header.encode [] = raw.bytes := raw.encode_header rfl rfl
  rw [hencode, raw.parse_decode, FrameKind.fromU8_toU8, pixelFormatFromU8_toU8]
  rfl

/-! ### Streams of frames -/

/-- A frame an honest sender writes: a payload as long as announced and within the limit. -/
structure Frame.WellFormed (frame : Frame) : Prop where
  payload_length : frame.payload.length = frame.header.payloadLen.toNat
  payload_le : frame.header.payloadLen.toNat ≤ maxPayload

def encodeFrames (frames : List Frame) : Writer := putMany Frame.encode frames

theorem Frame.encode_eq_append (frame : Frame) (dst : Bytes) :
    frame.encode dst = dst ++ frame.encode [] := by
  rw [encode, FrameHeader.encode_eq_append, List.append_assoc, encode]

theorem Frame.parse_decode_encode {frame : Frame} (hframe : frame.WellFormed) (rest : Bytes) :
    parse Frame.decode (frame.encode [] ++ rest) = some (.ok frame, rest) := by
  have hheader := FrameHeader.parse_decode_encode frame.header (frame.payload ++ rest)
  rw [if_neg (by have := hframe.payload_le; omega)] at hheader
  have hpayload : parse (take frame.header.payloadLen.toNat : Reader ProtocolError Bytes)
      (frame.payload ++ rest) = some (.ok frame.payload, rest) :=
    parse_take_append rest hframe.payload_length
  rw [decode, Frame.encode, List.append_assoc, parse_bind_ok hheader, parse_bind_ok hpayload]
  rfl

theorem Frame.parse_decode_oversized {header : FrameHeader}
    (hsize : maxPayload < header.payloadLen.toNat) (rest : Bytes) :
    parse Frame.decode (header.encode [] ++ rest)
      = some (.error (.payloadTooLarge header.payloadLen.toNat maxPayload), rest) := by
  have hheader := FrameHeader.parse_decode_encode header rest
  rw [if_pos hsize] at hheader
  exact parse_bind_error hheader

/-- **Frame headers survive the wire.** A stream of well-formed frames is decoded exactly, every
header takes 24 bytes, and a header announcing more than the limit is refused wherever it stands. -/
theorem frames_survive_wire (frames : List Frame) (hframes : ∀ frame ∈ frames, frame.WellFormed) :
    parse (many Frame.decode frames.length) (encodeFrames frames []) = some (.ok frames, [])
      ∧ (∀ (header : FrameHeader) (dst : Bytes),
          (header.encode dst).length = dst.length + frameHeaderSize)
      ∧ ∀ header : FrameHeader, maxPayload < header.payloadLen.toNat → ∀ rest : Bytes,
          parse FrameHeader.decode (header.encode [] ++ rest)
              = some (.error (.payloadTooLarge header.payloadLen.toNat maxPayload), rest)
            ∧ parse (many Frame.decode (frames.length + 1))
                (header.encode (encodeFrames frames []) ++ rest)
              = some (.error (.payloadTooLarge header.payloadLen.toNat maxPayload), rest) := by
  have hrecord : ∀ frame ∈ frames, ∀ rest,
      parse Frame.decode (frame.encode [] ++ rest) = some (.ok frame, rest) :=
    fun frame hmem rest => Frame.parse_decode_encode (hframes frame hmem) rest
  have hstream : encodeFrames frames [] = frames.flatMap (·.encode []) := by
    rw [encodeFrames, putMany_eq_append Frame.encode_eq_append, List.nil_append]
  refine ⟨?_, FrameHeader.length_encode, fun header hsize rest => ⟨?_, ?_⟩⟩
  · rw [hstream, ← List.append_nil (frames.flatMap _)]
    exact parse_many frames hrecord []
  · rw [FrameHeader.parse_decode_encode, if_pos hsize]
  · rw [FrameHeader.encode_eq_append, hstream, List.append_assoc]
    exact parse_many_error frames hrecord (Frame.parse_decode_oversized hsize rest)

theorem frames_survive_wire_two :
    let full : Frame :=
      { header := { kind := .full, displayId := ⟨7⟩, sequence := 41, resolution := ⟨2, 1⟩,
                    pixelFormat := .bgra8, payloadLen := 8 },
        payload := [1, 2, 3, 4, 5, 6, 7, 8] }
    let delta : Frame :=
      { header := { kind := .delta, displayId := ⟨7⟩, sequence := 42, resolution := ⟨2, 1⟩,
                    pixelFormat := .nv12, payloadLen := 3 },
        payload := [1, 2, 3] }
    parse (many Frame.decode 2) (encodeFrames [full, delta] [])
      = some (.ok [full, delta], []) :=
  (frames_survive_wire [_, _]
    (List.forall_mem_cons.mpr
      ⟨⟨rfl, by decide⟩, List.forall_mem_singleton.mpr ⟨rfl, by decide⟩⟩)).1

end QuicView
