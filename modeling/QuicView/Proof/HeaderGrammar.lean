import QuicView.Proof.FrameWire

/-!
# The header grammar

Any 24 bytes are the fields of some header, checked or not; what the decoder does with them depends
on the three fields that may be refused.
-/

namespace QuicView

open Wire

theorem FrameKind.fromU8_eq_ok_iff {v : UInt8} {kind : FrameKind} :
    FrameKind.fromU8 v = .ok kind ↔ v = kind.toU8 := by
  constructor
  · intro hread
    unfold FrameKind.fromU8 at hread
    split_ifs at hread with hfull hdelta hcursor
    · cases hread
      exact hfull
    · cases hread
      exact hdelta
    · cases hread
      exact hcursor
  · rintro rfl
    exact fromU8_toU8 kind

theorem pixelFormatFromU8_eq_ok_iff {v : UInt8} {fmt : PixelFormat} :
    pixelFormatFromU8 v = .ok fmt ↔ v = pixelFormatToU8 fmt := by
  constructor
  · intro hread
    unfold pixelFormatFromU8 at hread
    split_ifs at hread with hbgra hrgba hrgb hnv12
    · cases hread
      exact hbgra
    · cases hread
      exact hrgba
    · cases hread
      exact hrgb
    · cases hread
      exact hnv12
  · rintro rfl
    exact pixelFormatFromU8_toU8 fmt

namespace RawHeader

theorem exists_eq_bytes_append {b : Bytes} (hlen : frameHeaderSize ≤ b.length) :
    ∃ (raw : RawHeader) (rest : Bytes), b = raw.bytes ++ rest := by
  rw [frameHeaderSize] at hlen
  obtain ⟨kind, b, rfl, hleft23⟩ := exists_eq_cons hlen
  obtain ⟨displayId, b, rfl, hleft19⟩ := exists_eq_u32_append hleft23
  obtain ⟨sequence, b, rfl, hleft15⟩ := exists_eq_u32_append hleft19
  obtain ⟨width, b, rfl, hleft11⟩ := exists_eq_u32_append hleft15
  obtain ⟨height, b, rfl, hleft7⟩ := exists_eq_u32_append hleft11
  obtain ⟨pixelFormat, b, rfl, hleft6⟩ := exists_eq_cons hleft7
  obtain ⟨reserved, b, rfl, hleft4⟩ := exists_eq_u16_append hleft6
  obtain ⟨payloadLen, rest, rfl, _⟩ := exists_eq_u32_append hleft4
  refine ⟨⟨kind, displayId, sequence, width, height, pixelFormat, reserved, payloadLen⟩, rest, ?_⟩
  simp [bytes]

variable (raw : RawHeader) (rest : Bytes)

/-! ### Where the fields stand -/

theorem getElem?_kind : (raw.bytes ++ rest)[0]? = some raw.kind := rfl

theorem getElem?_pixelFormat : (raw.bytes ++ rest)[17]? = some raw.pixelFormat := by
  simp [bytes, List.getElem?_append]

theorem take_drop_payloadLen :
    ((raw.bytes ++ rest).drop 20).take 4 = bigEndian 4 raw.payloadLen.toNat := by
  simp [bytes, List.drop_append]

theorem bytes_clear_reserved :
    { raw with reserved := 0 }.bytes
      = (raw.bytes ++ rest).take 18 ++ [0, 0] ++ ((raw.bytes ++ rest).drop 20).take 4 := by
  rw [take_drop_payloadLen]
  simp [bytes, bigEndian]

/-! ### Which headers the decoder accepts -/

theorem parse_decode_eq_ok {header : FrameHeader} {left : Bytes}
    (hparse : parse FrameHeader.decode (raw.bytes ++ rest) = some (.ok header, left)) :
    ∃ kind fmt, raw.kind = kind.toU8 ∧ raw.pixelFormat = pixelFormatToU8 fmt
      ∧ raw.payloadLen.toNat ≤ maxPayload ∧ header = raw.header kind fmt ∧ left = rest := by
  rw [parse_decode] at hparse
  split at hparse
  · cases hparse
  · cases hparse
  · rename_i kind fmt hkind hfmt
    split_ifs at hparse with hsize
    · cases hparse
    · cases hparse
      exact ⟨kind, fmt, FrameKind.fromU8_eq_ok_iff.mp hkind, pixelFormatFromU8_eq_ok_iff.mp hfmt,
        Nat.le_of_not_lt hsize, rfl, rfl⟩

theorem parse_decode_of_known {kind : FrameKind} {fmt : PixelFormat}
    (hkind : raw.kind = kind.toU8) (hfmt : raw.pixelFormat = pixelFormatToU8 fmt)
    (hsize : raw.payloadLen.toNat ≤ maxPayload) :
    parse FrameHeader.decode (raw.bytes ++ rest) = some (.ok (raw.header kind fmt), rest) := by
  rw [parse_decode, FrameKind.fromU8_eq_ok_iff.mpr hkind, pixelFormatFromU8_eq_ok_iff.mpr hfmt]
  exact if_neg (Nat.not_lt_of_le hsize)

theorem parse_decode_ne_none : parse FrameHeader.decode (raw.bytes ++ rest) ≠ none := by
  rw [parse_decode]
  split
  · exact Option.some_ne_none _
  · exact Option.some_ne_none _
  · split_ifs
    · exact Option.some_ne_none _
    · exact Option.some_ne_none _

end RawHeader

/-! ### The grammar -/

/-- The byte strings that begin with a header. -/
structure HeaderGrammar (b : Bytes) : Prop where
  length : frameHeaderSize ≤ b.length
  kind : ∃ kind : FrameKind, b[0]? = some kind.toU8
  pixelFormat : ∃ fmt, b[17]? = some (pixelFormatToU8 fmt)
  payloadLen : ofBigEndian ((b.drop 20).take 4) ≤ maxPayload

theorem RawHeader.headerGrammar_iff (raw : RawHeader) (rest : Bytes) :
    HeaderGrammar (raw.bytes ++ rest)
      ↔ (∃ kind : FrameKind, raw.kind = kind.toU8)
        ∧ (∃ fmt, raw.pixelFormat = pixelFormatToU8 fmt) ∧ raw.payloadLen.toNat ≤ maxPayload := by
  have hlen : frameHeaderSize ≤ (raw.bytes ++ rest).length := by
    rw [List.length_append, length_bytes]
    omega
  have hsize : ofBigEndian (((raw.bytes ++ rest).drop 20).take 4) = raw.payloadLen.toNat := by
    rw [take_drop_payloadLen, ofBigEndian_bigEndian raw.payloadLen.toNat_lt]
  constructor
  · rintro ⟨_, ⟨kind, hkind⟩, ⟨fmt, hfmt⟩, hpayload⟩
    rw [getElem?_kind] at hkind
    rw [getElem?_pixelFormat] at hfmt
    exact ⟨⟨kind, Option.some.inj hkind⟩, ⟨fmt, Option.some.inj hfmt⟩, hsize ▸ hpayload⟩
  · rintro ⟨⟨kind, hkind⟩, ⟨fmt, hfmt⟩, hpayload⟩
    refine ⟨hlen, ⟨kind, ?_⟩, ⟨fmt, ?_⟩, hsize.symm ▸ hpayload⟩
    · rw [getElem?_kind, hkind]
    · rw [getElem?_pixelFormat, hfmt]

theorem FrameHeader.parse_decode_short {b : Bytes} (hlen : b.length < frameHeaderSize) :
    parse FrameHeader.decode b
      = some (.error (.invalidFrame s!"need {frameHeaderSize} bytes, got {b.length}"), b) := by
  rw [decode, parse_remaining_bind, if_pos hlen]
  rfl

/-- **The decoder accepts exactly the header grammar.** It never reads past the end of its input,
and consumes the 24 bytes of a header, which the encoder writes for it again with the reserved bytes
cleared. -/
theorem decode_accepts_header_grammar (b : Bytes) :
    parse FrameHeader.decode b ≠ none
      ∧ ((∃ header left, parse FrameHeader.decode b = some (.ok header, left)) ↔ HeaderGrammar b)
      ∧ (∀ header left, parse FrameHeader.decode b = some (.ok header, left) →
          left = b.drop frameHeaderSize
            ∧ header.encode [] = b.take 18 ++ [0, 0] ++ (b.drop 20).take 4)
      ∧ (b.length < frameHeaderSize →
          ∃ error, parse FrameHeader.decode b = some (.error error, b)) := by
  by_cases hlen : b.length < frameHeaderSize
  · have hshort := FrameHeader.parse_decode_short hlen
    refine ⟨?_, ⟨?_, ?_⟩, ?_, fun _ => ⟨_, hshort⟩⟩
    · rw [hshort]
      exact Option.some_ne_none _
    · rintro ⟨header, left, hparse⟩
      rw [hshort] at hparse
      cases hparse
    · intro hgrammar
      exact absurd hgrammar.length (Nat.not_le_of_lt hlen)
    · intro header left hparse
      rw [hshort] at hparse
      cases hparse
  · obtain ⟨raw, rest, rfl⟩ := RawHeader.exists_eq_bytes_append (Nat.le_of_not_lt hlen)
    refine ⟨raw.parse_decode_ne_none rest, ?_, ?_, fun hshort => absurd hshort hlen⟩
    · rw [RawHeader.headerGrammar_iff]
      constructor
      · rintro ⟨header, left, hparse⟩
        obtain ⟨kind, fmt, hkind, hfmt, hsize, _, _⟩ := raw.parse_decode_eq_ok rest hparse
        exact ⟨⟨kind, hkind⟩, ⟨fmt, hfmt⟩, hsize⟩
      · rintro ⟨⟨kind, hkind⟩, ⟨fmt, hfmt⟩, hsize⟩
        exact ⟨_, _, raw.parse_decode_of_known rest hkind hfmt hsize⟩
    · intro header left hparse
      obtain ⟨kind, fmt, hkind, hfmt, _, rfl, rfl⟩ := raw.parse_decode_eq_ok rest hparse
      refine ⟨(List.drop_left' raw.length_bytes).symm, ?_⟩
      rw [raw.encode_header hkind hfmt, raw.bytes_clear_reserved left]

end QuicView
