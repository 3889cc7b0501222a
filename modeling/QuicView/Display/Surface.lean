import QuicView.Protocol.Display

namespace QuicView

inductive DisplayError where
  | displayNotFound (id : UInt32)
  | surfaceCreation (reason : String)
  | renderFailed (reason : String)
  | unsupportedFormat
  | platformNotSupported
  deriving DecidableEq, Repr

/-- `none` is a panic: the slices must have one length. -/
def copyFromSlice (dst src : List UInt8) : Option (List UInt8) :=
  if dst.length = src.length then some src else none

structure MemorySurface where
  displayId : DisplayId
  resolution : Resolution
  buffer : List UInt8
  deriving DecidableEq, Repr

namespace MemorySurface

def bufLen (resolution : Resolution) : Nat := (resolution.width * resolution.height * 4).toNat

def new (displayId : DisplayId) (resolution : Resolution) : MemorySurface where
  displayId := displayId
  resolution := resolution
  buffer := List.replicate (bufLen resolution) 0

def pixels (surface : MemorySurface) : List UInt8 := surface.buffer

def resize (surface : MemorySurface) (resolution : Resolution) :
    Except DisplayError Unit × MemorySurface :=
  let length := bufLen resolution
  (.ok (),
    { surface with
      resolution := resolution
      buffer := surface.buffer.take length
        ++ List.replicate (length - surface.buffer.length) 0 })

def present (surface : MemorySurface) (pixels : List UInt8) :
    Option (Except DisplayError Unit × MemorySurface) :=
  let expected := bufLen surface.resolution
  if pixels.length ≠ expected then
    some (.error (.renderFailed
      s!"buffer size mismatch: got {pixels.length} expected {expected}"), surface)
  else do
    let buffer ← copyFromSlice surface.buffer pixels
    some (.ok (), { surface with buffer := buffer })

inductive Call where
  | resize (resolution : Resolution)
  | present (pixels : List UInt8)
  deriving DecidableEq, Repr

def step (surface : MemorySurface) : Call → Option MemorySurface
  | .resize resolution => some (surface.resize resolution).2
  | .present pixels => (surface.present pixels).map Prod.snd

end MemorySurface

end QuicView
