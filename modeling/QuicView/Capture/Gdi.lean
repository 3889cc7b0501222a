import QuicView.Capture.Source

/-!
# Capture through GDI

The system's functions are a parameter: what they answer, and what `GetDIBits` leaves in the buffer
whose address it is given.
-/

namespace QuicView

/-- The system's answers; a handle that was not given is `false`. -/
structure Gdi where
  getSystemMetrics : Int32 × Int32
  getDC : Bool
  createCompatibleDC : Bool
  createCompatibleBitmap : Int32 → Int32 → Bool
  bitBlt : Int32 → Int32 → Bool
  /-- The number of lines, and the buffer afterwards, of the length it had. -/
  getDIBits : UInt32 → Int32 → Int32 → (buffer : List UInt8) →
    Int32 × { data : List UInt8 // data.length = buffer.length }

structure GdiCaptureSource where
  active : Bool
  targetDisplay : Option DisplayId
  resolution : Resolution
  frameCount : UInt64
  deriving DecidableEq, Repr

namespace GdiCaptureSource

def new : GdiCaptureSource where
  active := false
  targetDisplay := none
  resolution := ⟨0, 0⟩
  frameCount := 0

def enumerateDisplays (gdi : Gdi) : Except CaptureError (List DisplayInfo) :=
  let (width, height) := gdi.getSystemMetrics
  if width ≤ 0 ∨ height ≤ 0 then .error (.captureFailed "failed to get screen dimensions")
  else
    .ok [{ id := .primary
           name := "Primary Display"
           resolution := ⟨width.toUInt32, height.toUInt32⟩
           refreshHz := 60
           isVirtual := false }]

def start (gdi : Gdi) (source : GdiCaptureSource) (displayId : DisplayId) :
    Except CaptureError Unit × GdiCaptureSource :=
  match enumerateDisplays gdi with
  | .error err => (.error err, source)
  | .ok displays =>
      match displays.find? fun d => d.id == displayId with
      | none => (.error (.displayNotFound displayId.id), source)
      | some target =>
          (.ok (),
            { source with
              targetDisplay := some displayId
              resolution := target.resolution
              active := true })

def allocate (source : GdiCaptureSource) : List UInt8 :=
  let bufSize := (source.resolution.width * source.resolution.height * 4).toNat
  List.replicate bufSize 0

def grab (gdi : Gdi) (source : GdiCaptureSource) :
    Except CaptureError (Option FrameBuffer) × GdiCaptureSource :=
  let w := source.resolution.width.toInt32
  let h := source.resolution.height.toInt32
  if !source.active then (.error (.captureFailed "not started"), source)
  else if !gdi.getDC then (.error (.captureFailed "GetDC failed"), source)
  else if !gdi.createCompatibleDC then (.error (.captureFailed "CreateCompatibleDC failed"), source)
  else if !gdi.createCompatibleBitmap w h then
    (.error (.captureFailed "CreateCompatibleBitmap failed"), source)
  else if !gdi.bitBlt w h then (.error (.captureFailed "BitBlt failed"), source)
  else
    let (lines, buffer) := gdi.getDIBits source.resolution.height w (-h) source.allocate
    if lines = 0 then (.error (.captureFailed "GetDIBits failed"), source)
    else
      let frameCount := source.frameCount + 1
      (.ok (some
        { data := buffer.val
          pixelFormat := .bgra8
          resolution := source.resolution
          timestampUs := frameCount * 16667 }),
        { source with frameCount := frameCount })

def stop (source : GdiCaptureSource) : Except CaptureError Unit × GdiCaptureSource :=
  (.ok (), { source with active := false, targetDisplay := none })

def captureSource : CaptureSource Gdi GdiCaptureSource where
  enumerateDisplays := fun gdi _ => enumerateDisplays gdi
  start := start
  grab := grab
  stop := fun _ => stop

end GdiCaptureSource

end QuicView
