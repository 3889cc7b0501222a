import QuicView.Capture.VirtualDisplay

namespace QuicView

structure FrameBuffer where
  data : List UInt8
  pixelFormat : PixelFormat
  resolution : Resolution
  timestampUs : UInt64
  deriving DecidableEq, Repr

inductive CaptureCall where
  | enumerateDisplays
  | start (displayId : DisplayId)
  | grab
  | stop
  deriving DecidableEq, Repr

inductive CaptureResult where
  | displays (result : Except CaptureError (List DisplayInfo))
  | done (result : Except CaptureError Unit)
  | frame (result : Except CaptureError (Option FrameBuffer))

structure CaptureSource (System Source : Type) where
  enumerateDisplays : System → Source → Except CaptureError (List DisplayInfo)
  start : System → Source → DisplayId → Except CaptureError Unit × Source
  grab : System → Source → Except CaptureError (Option FrameBuffer) × Source
  stop : System → Source → Except CaptureError Unit × Source

namespace CaptureSource

variable {System Source : Type}

def take (self : CaptureSource System Source) (source : Source) :
    System × CaptureCall → CaptureResult × Source
  | (system, .enumerateDisplays) => (.displays (self.enumerateDisplays system source), source)
  | (system, .start displayId) => (self.start system source displayId).map .done id
  | (system, .grab) => (self.grab system source).map .frame id
  | (system, .stop) => (self.stop system source).map .done id

end CaptureSource

structure TestCaptureSource where
  active : Bool
  displayId : DisplayId
  resolution : Resolution
  frameCount : UInt64
  deriving DecidableEq, Repr

namespace TestCaptureSource

def new (resolution : Resolution) : TestCaptureSource where
  active := false
  displayId := .primary
  resolution := resolution
  frameCount := 0

def enumerateDisplays (source : TestCaptureSource) : Except CaptureError (List DisplayInfo) :=
  .ok [{ id := .primary
         name := "Test Display"
         resolution := source.resolution
         refreshHz := 60
         isVirtual := false }]

def start (source : TestCaptureSource) (displayId : DisplayId) :
    Except CaptureError Unit × TestCaptureSource :=
  (.ok (), { source with displayId := displayId, active := true })

def grab (source : TestCaptureSource) :
    Except CaptureError (Option FrameBuffer) × TestCaptureSource :=
  if source.active then
    let frameCount := source.frameCount + 1
    let size := PixelFormat.bgra8.bufferSize source.resolution
    let color := (frameCount % 256).toUInt8
    (.ok (some
      { data := List.replicate size.toNat color
        pixelFormat := .bgra8
        resolution := source.resolution
        timestampUs := frameCount * 16667 }),
      { source with frameCount := frameCount })
  else (.error (.captureFailed "not started"), source)

def stop (source : TestCaptureSource) : Except CaptureError Unit × TestCaptureSource :=
  (.ok (), { source with active := false })

def captureSource : CaptureSource Unit TestCaptureSource where
  enumerateDisplays := fun _ => enumerateDisplays
  start := fun _ => start
  grab := fun _ => grab
  stop := fun _ => stop

end TestCaptureSource

end QuicView
