import QuicView.Protocol.Basic

/-!
# The delta codec

One type plays both ends: `encode` refers to the last frame it was given, `decode` to the last frame
it reconstructed.
-/

namespace QuicView

inductive CodecError where
  | encode (reason : String)
  | decode (reason : String)
  | unsupportedConversion (source target : String)
  | bufferMismatch (expected actual : Nat)
  deriving DecidableEq, Repr

structure DeltaCodec where
  prevFrame : Option Bytes
  deriving DecidableEq, Repr

namespace DeltaCodec

def new : DeltaCodec := { prevFrame := none }

def reset (_codec : DeltaCodec) : DeltaCodec := { prevFrame := none }

def encode (codec : DeltaCodec) (raw : Bytes) : Except CodecError Bytes × DeltaCodec :=
  match codec.prevFrame with
  | none => (.ok raw, { prevFrame := some raw })
  | some prev =>
      if prev.length ≠ raw.length then
        -- resolution or format changed: a keyframe
        (.ok raw, { prevFrame := some raw })
      else
        let delta := List.zipWith (fun a b => a ^^^ b) raw prev
        (.ok delta, { prevFrame := some raw })

def decode (codec : DeltaCodec) (compressed : Bytes) : Except CodecError Bytes × DeltaCodec :=
  match codec.prevFrame with
  | none => (.ok compressed, { prevFrame := some compressed })
  | some prev =>
      if prev.length ≠ compressed.length then
        (.ok compressed, { prevFrame := some compressed })
      else
        let frame := List.zipWith (fun d p => d ^^^ p) compressed prev
        (.ok frame, { prevFrame := some frame })

def decodeAll (codec : DeltaCodec) (payloads : List Bytes) : DeltaCodec :=
  payloads.foldl (fun codec payload => (codec.decode payload).2) codec

end DeltaCodec

structure Delivery where
  frame : Bytes
  payload : Bytes
  decoded : Bytes
  encoderRef : Option Bytes
  decoderRef : Option Bytes
  deriving DecidableEq, Repr

/-- Encodes the frames in order and feeds each payload to the decoder, stopping at an error. -/
def transmit (encoder decoder : DeltaCodec) : List Bytes → Except CodecError (List Delivery)
  | [] => .ok []
  | frame :: frames => do
      let payload ← (encoder.encode frame).1
      let decoded ← (decoder.decode payload).1
      let encoder' := (encoder.encode frame).2
      let decoder' := (decoder.decode payload).2
      let later ← transmit encoder' decoder' frames
      return { frame, payload, decoded,
               encoderRef := encoder'.prevFrame, decoderRef := decoder'.prevFrame } :: later

end QuicView
