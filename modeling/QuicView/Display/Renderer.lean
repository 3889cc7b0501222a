import QuicView.Display.Surface
import QuicView.Protocol.Frame

namespace QuicView

structure LogRenderer where
  framesRendered : UInt64
  deriving DecidableEq, Repr

namespace LogRenderer

def new : LogRenderer where
  framesRendered := 0

def render (renderer : LogRenderer) (_header : FrameHeader) (_pixels : Bytes) :
    Except DisplayError Unit × LogRenderer :=
  (.ok (), { framesRendered := renderer.framesRendered + 1 })

end LogRenderer

structure BufferRenderer where
  displayId : DisplayId
  lastFrame : Option Bytes
  format : PixelFormat
  framesRendered : UInt64
  deriving DecidableEq, Repr

namespace BufferRenderer

def new (displayId : DisplayId) (format : PixelFormat) : BufferRenderer where
  displayId := displayId
  lastFrame := none
  format := format
  framesRendered := 0

def render (renderer : BufferRenderer) (header : FrameHeader) (pixels : Bytes) :
    Except DisplayError Unit × BufferRenderer :=
  if header.displayId ≠ renderer.displayId then
    (.error (.displayNotFound header.displayId.id), renderer)
  else
    (.ok (),
      { renderer with
        lastFrame := some pixels
        framesRendered := renderer.framesRendered + 1 })

end BufferRenderer

end QuicView
