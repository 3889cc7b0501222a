import QuicView.Capture.Source
import QuicView.Codec.Encoder
import QuicView.Display.Renderer

/-!
# The video pipeline

Which frames share an encoder, and with it a decoder, is a parameter.
-/

namespace QuicView

open Lockstep

structure Shot where
  kind : FrameKind
  displayId : DisplayId
  sequence : UInt32
  frame : FrameBuffer
  deriving DecidableEq, Repr

/-- The header announces the length of the raw pixels, cut to 32 bits. -/
def Shot.header (shot : Shot) : FrameHeader where
  kind := shot.kind
  displayId := shot.displayId
  sequence := shot.sequence
  resolution := shot.frame.resolution
  pixelFormat := shot.frame.pixelFormat
  payloadLen := UInt32.ofNat shot.frame.data.length

def Shot.item (shot : Shot) : FrameHeader × Bytes := (shot.header, shot.frame.data)

variable {Encoder Decoder Channel : Type} [DecidableEq Channel]

def sendShots (codec : FrameCodec Encoder Decoder) (channel : FrameHeader → Channel)
    (encoders : Channel → Encoder) (shots : List Shot) : Except CodecError (List Frame) := do
  let codes ← encodeAll codec channel encoders (shots.map Shot.item)
  return codes.map fun code => ⟨code.1, code.2⟩

def receiveFrames (codec : FrameCodec Encoder Decoder) (channel : FrameHeader → Channel)
    (decoders : Channel → Decoder) (frames : List Frame) :
    Except CodecError (List (FrameHeader × Bytes)) :=
  decodeAll codec channel decoders (frames.map fun frame => (frame.header, frame.payload))

def LogRenderer.renderAll (renderer : LogRenderer) (items : List (FrameHeader × Bytes)) :
    LogRenderer :=
  items.foldl (fun renderer item => (renderer.render item.1 item.2).2) renderer

def BufferRenderer.renderAll (renderer : BufferRenderer) (items : List (FrameHeader × Bytes)) :
    BufferRenderer :=
  items.foldl (fun renderer item => (renderer.render item.1 item.2).2) renderer

end QuicView
