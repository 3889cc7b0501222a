import QuicView.Library.Wire
import QuicView.Protocol.Display

/-!
# Frame headers

`[kind:1][display_id:4][seq:4][width:4][height:4][pixel_fmt:1][reserved:2][payload_len:4]`
-/

namespace QuicView

open Wire

inductive FrameKind where
  | full
  | delta
  | cursor
  deriving DecidableEq, Repr

def FrameKind.toU8 : FrameKind → UInt8
  | .full => 0
  | .delta => 1
  | .cursor => 2

def FrameKind.fromU8 (v : UInt8) : Except ProtocolError FrameKind :=
  if v = 0 then .ok .full
  else if v = 1 then .ok .delta
  else if v = 2 then .ok .cursor
  else .error (.unknownFrameKind v)

def pixelFormatToU8 : PixelFormat → UInt8
  | .bgra8 => 0
  | .rgba8 => 1
  | .rgb8 => 2
  | .nv12 => 3

def pixelFormatFromU8 (v : UInt8) : Except ProtocolError PixelFormat :=
  if v = 0 then .ok .bgra8
  else if v = 1 then .ok .rgba8
  else if v = 2 then .ok .rgb8
  else if v = 3 then .ok .nv12
  else .error (.decode s!"unknown pixel format: {v}")

structure FrameHeader where
  kind : FrameKind
  displayId : DisplayId
  sequence : UInt32
  resolution : Resolution
  pixelFormat : PixelFormat
  payloadLen : UInt32
  deriving DecidableEq, Repr

def frameHeaderSize : Nat := 24

def maxPayload : Nat := 64 * 1024 * 1024

def FrameHeader.encode (header : FrameHeader) : Writer := fun dst =>
  dst
    |> putU8 header.kind.toU8
    |> putU32 header.displayId.id
    |> putU32 header.sequence
    |> putU32 header.resolution.width
    |> putU32 header.resolution.height
    |> putU8 (pixelFormatToU8 header.pixelFormat)
    |> putU16 0 -- reserved
    |> putU32 header.payloadLen

def FrameHeader.decode : Reader ProtocolError FrameHeader := do
  let available ← remaining
  if available < frameHeaderSize then
    throw (.invalidFrame s!"need {frameHeaderSize} bytes, got {available}")
  let kind ← check (FrameKind.fromU8 (← getU8))
  let displayId := DisplayId.mk (← getU32)
  let sequence ← getU32
  let width ← getU32
  let height ← getU32
  let pixelFormat ← check (pixelFormatFromU8 (← getU8))
  let _reserved ← getU16
  let payloadLen ← getU32
  if payloadLen.toNat > maxPayload then
    throw (.payloadTooLarge payloadLen.toNat maxPayload)
  return { kind, displayId, sequence, resolution := { width, height }, pixelFormat, payloadLen }

structure Frame where
  header : FrameHeader
  payload : Bytes
  deriving DecidableEq, Repr

def Frame.encode (frame : Frame) : Writer := fun dst => frame.header.encode dst ++ frame.payload

def Frame.decode : Reader ProtocolError Frame := do
  let header ← FrameHeader.decode
  let payload ← take header.payloadLen.toNat
  return { header, payload }

end QuicView
