import QuicView.Display.Pipeline
import QuicView.Proof.DeltaStream
import QuicView.Proof.FrameWire

/-!
# Video from end to end

The length of a frame in the header, which is that of the raw pixels, has to be that of the payload:
both codecs see to it by coding a frame in as many bytes as it has.
-/

namespace QuicView

open Wire Lockstep

def SameLength (raw code : Bytes) : Prop := code.length = raw.length

theorem rawCodec_faithful : rawCodec.Faithful (fun _ _ => True) SameLength :=
  fun encoder decoder raw _ => ⟨raw, encoder, decoder, rfl, rfl, rfl, trivial⟩

theorem deltaCodec_faithful :
    deltaCodec.Faithful (fun encoder decoder => encoder = decoder) SameLength := by
  rintro encoder decoder raw rfl
  have hdecoded : xorDifferencing.transform encoder.prevFrame
      (xorDifferencing.transform encoder.prevFrame raw) = raw :=
    xorDifferencing.transform_transform encoder.prevFrame raw
  refine ⟨_, _, _, DeltaCodec.encode_eq encoder raw, ?_,
    xorDifferencing.shape_transform encoder.prevFrame raw, rfl⟩
  show encoder.decode _ = _
  rw [DeltaCodec.decode_eq, hdecoded]

/-! ### Renderers -/

namespace BufferRenderer

theorem renderAll_concat (renderer : BufferRenderer) (items : List (FrameHeader × Bytes))
    (item : FrameHeader × Bytes) :
    renderer.renderAll (items ++ [item]) = ((renderer.renderAll items).render item.1 item.2).2 := by
  rw [renderAll, List.foldl_concat]
  rfl

theorem renderAll_eq (renderer : BufferRenderer) (items : List (FrameHeader × Bytes)) :
    renderer.renderAll items
      = { renderer with
          lastFrame :=
            ((items.filter fun item => item.1.displayId = renderer.displayId).getLast?.map
              Prod.snd).or renderer.lastFrame
          framesRendered := renderer.framesRendered + UInt64.ofNat
            (items.countP fun item => item.1.displayId = renderer.displayId) } := by
  induction items using List.reverseRecOn with
  | nil =>
      have hzero : renderer.framesRendered + UInt64.ofNat 0 = renderer.framesRendered :=
        UInt64.add_zero _
      rw [List.countP_nil, hzero]
      rfl
  | append_singleton items item ih =>
      rw [renderAll_concat, ih, render]
      by_cases hown : item.1.displayId = renderer.displayId
      · have hfilter : (items ++ [item]).filter (fun item => item.1.displayId = renderer.displayId)
            = items.filter (fun item => item.1.displayId = renderer.displayId) ++ [item] := by
          simp [hown]
        have hcount : UInt64.ofNat ((items ++ [item]).countP
            fun item => item.1.displayId = renderer.displayId)
            = UInt64.ofNat (items.countP fun item => item.1.displayId = renderer.displayId)
              + 1 := by
          rw [List.countP_eq_length_filter, hfilter, List.length_append, UInt64.ofNat_add,
            List.countP_eq_length_filter]
          rfl
        rw [if_neg (not_not.mpr hown), hfilter, hcount, List.getLast?_concat, ← UInt64.add_assoc]
        rfl
      · have hfilter : (items ++ [item]).filter (fun item => item.1.displayId = renderer.displayId)
            = items.filter fun item => item.1.displayId = renderer.displayId := by
          simp [hown]
        rw [if_pos hown, List.countP_eq_length_filter, List.countP_eq_length_filter, hfilter]

end BufferRenderer

theorem LogRenderer.renderAll_eq (renderer : LogRenderer) (items : List (FrameHeader × Bytes)) :
    renderer.renderAll items
      = { framesRendered := renderer.framesRendered + UInt64.ofNat items.length } := by
  induction items generalizing renderer with
  | nil => exact congrArg LogRenderer.mk (UInt64.add_zero _).symm
  | cons item items ih =>
      calc renderer.renderAll (item :: items)
          = LogRenderer.renderAll ⟨renderer.framesRendered + 1⟩ items := rfl
        _ = ⟨renderer.framesRendered + 1 + UInt64.ofNat items.length⟩ := ih _
        _ = ⟨renderer.framesRendered + UInt64.ofNat (item :: items).length⟩ := by
          rw [List.length_cons, Nat.add_comm, UInt64.ofNat_add, ← UInt64.add_assoc]
          rfl

/-! ### Frames on the wire -/

theorem parse_encodeFrames {frames : List Frame} (hframes : ∀ frame ∈ frames, frame.WellFormed)
    (rest : Bytes) :
    parse (many Frame.decode frames.length) (encodeFrames frames [] ++ rest)
      = some (.ok frames, rest) := by
  rw [encodeFrames, putMany_eq_append Frame.encode_eq_append, List.nil_append]
  exact parse_many frames (fun frame hmem => Frame.parse_decode_encode (hframes frame hmem)) rest

theorem Shot.wellFormed {shot : Shot} {code : FrameHeader × Bytes}
    (hsize : shot.frame.data.length ≤ maxPayload) (hheader : code.1 = shot.header)
    (hlength : SameLength shot.frame.data code.2) : (⟨code.1, code.2⟩ : Frame).WellFormed := by
  have hbound : maxPayload < 2 ^ 32 := by decide
  have hannounced : shot.header.payloadLen.toNat = shot.frame.data.length :=
    UInt32.toNat_ofNat_of_lt' (hsize.trans_lt hbound)
  constructor
  · show code.2.length = code.1.payloadLen.toNat
    rw [hheader, hannounced]
    exact hlength
  · show code.1.payloadLen.toNat ≤ maxPayload
    rw [hheader, hannounced]
    exact hsize

section

variable {Encoder Decoder Channel : Type} [DecidableEq Channel]

/-- The frames that are sent are decoded to the pixels captured, each under its header and in order,
and a renderer of any display ends with the last frame of that display. -/
def Delivers (codec : FrameCodec Encoder Decoder) (channel : FrameHeader → Channel)
    (encoders : Channel → Encoder) (decoders : Channel → Decoder) (shots : List Shot) : Prop :=
  ∃ frames, sendShots codec channel encoders shots = .ok frames
    ∧ parse (many Frame.decode shots.length) (encodeFrames frames []) = some (.ok frames, [])
    ∧ receiveFrames codec channel decoders frames = .ok (shots.map Shot.item)
    ∧ (∀ renderer : LogRenderer, renderer.renderAll (shots.map Shot.item)
        = { framesRendered := renderer.framesRendered + UInt64.ofNat shots.length })
    ∧ ∀ renderer : BufferRenderer,
        let own := shots.filter fun shot => shot.displayId = renderer.displayId
        renderer.renderAll (shots.map Shot.item)
          = { renderer with
              lastFrame := (own.getLast?.map fun shot => shot.frame.data).or renderer.lastFrame
              framesRendered := renderer.framesRendered + UInt64.ofNat own.length }

theorem delivers_of_faithful {codec : FrameCodec Encoder Decoder} {Rel : Encoder → Decoder → Prop}
    (hcodec : codec.Faithful Rel SameLength) (channel : FrameHeader → Channel)
    {encoders : Channel → Encoder} {decoders : Channel → Decoder}
    (hrel : ∀ c, Rel (encoders c) (decoders c)) {shots : List Shot}
    (hsize : ∀ shot ∈ shots, shot.frame.data.length ≤ maxPayload) :
    Delivers codec channel encoders decoders shots := by
  obtain ⟨codes, hcodes, hitems, hall⟩ :=
    hcodec.decodeAll_encodeAll channel (shots.map Shot.item) hrel
  have hsend : sendShots codec channel encoders shots
      = .ok (codes.map fun code => ⟨code.1, code.2⟩) := by
    rw [sendShots, hcodes]
    rfl
  have hlength : (codes.map fun code => (⟨code.1, code.2⟩ : Frame)).length = shots.length := by
    rw [List.length_map, ← hall.length_eq, List.length_map]
  refine ⟨_, hsend, ?_, ?_, fun renderer => ?_, fun renderer => ?_⟩
  · have hframes : ∀ frame ∈ codes.map fun code => (⟨code.1, code.2⟩ : Frame),
        frame.WellFormed := by
      intro frame hmem
      obtain ⟨code, hcode, rfl⟩ := List.mem_map.mp hmem
      obtain ⟨item, hitem, hheader, hcodeLength⟩ :=
        exists_of_mem_right hall hcode
      obtain ⟨shot, hshot, rfl⟩ := List.mem_map.mp hitem
      exact Shot.wellFormed (hsize shot hshot) hheader hcodeLength
    rw [← hlength, ← List.append_nil (encodeFrames _ [])]
    exact parse_encodeFrames hframes []
  · rw [receiveFrames, List.map_map]
    exact (congrArg _ (List.map_id codes)).trans hitems
  · rw [LogRenderer.renderAll_eq, List.length_map]
  · have hown : (shots.map Shot.item).filter (fun item => item.1.displayId = renderer.displayId)
        = (shots.filter fun shot => shot.displayId = renderer.displayId).map Shot.item :=
      List.filter_map
    rw [BufferRenderer.renderAll_eq, List.countP_eq_length_filter, hown, List.getLast?_map,
      Option.map_map, List.length_map]
    rfl

end

/-- **Video from end to end.** Whatever the displays of the frames and however the codecs are shared
out: when no frame is over the limit, delta codecs that start in the same state on both sides
deliver the frames, and so do raw codecs. -/
theorem video_end_to_end {Channel : Type} [DecidableEq Channel] (channel : FrameHeader → Channel)
    (shots : List Shot) (hsize : ∀ shot ∈ shots, shot.frame.data.length ≤ maxPayload) :
    (∀ codecs : Channel → DeltaCodec, Delivers deltaCodec channel codecs codecs shots)
      ∧ ∀ encoders decoders : Channel → RawCodec,
        Delivers rawCodec channel encoders decoders shots :=
  ⟨fun _ => delivers_of_faithful deltaCodec_faithful channel (fun _ => rfl) hsize,
    fun _ _ => delivers_of_faithful rawCodec_faithful channel (fun _ => trivial) hsize⟩

theorem video_end_to_end_two_displays :
    let frame (byte : UInt8) : FrameBuffer :=
      { data := [byte, 0, 0, 255], pixelFormat := .bgra8, resolution := ⟨1, 1⟩, timestampUs := 0 }
    let shots : List Shot :=
      [⟨.full, ⟨0⟩, 1, frame 7⟩, ⟨.full, ⟨1⟩, 1, frame 8⟩, ⟨.delta, ⟨0⟩, 2, frame 7⟩,
        ⟨.delta, ⟨1⟩, 2, frame 9⟩]
    Delivers deltaCodec FrameHeader.displayId (fun _ => .new) (fun _ => .new) shots
      ∧ Delivers rawCodec (fun _ => ()) (fun _ => ⟨⟩) (fun _ => ⟨⟩) shots := by
  intro frame shots
  have hsize : ∀ shot ∈ shots, shot.frame.data.length ≤ maxPayload := by decide
  exact ⟨(video_end_to_end FrameHeader.displayId shots hsize).1 _,
    (video_end_to_end (fun _ => ()) shots hsize).2 _ _⟩

end QuicView
