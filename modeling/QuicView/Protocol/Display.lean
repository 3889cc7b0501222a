import QuicView.Protocol.Basic

/-!
# Displays

Arithmetic wraps, as in a release build, and `usize` has 64 bits.
-/

namespace QuicView

structure DisplayId where
  id : UInt32
  deriving DecidableEq, Repr

def DisplayId.primary : DisplayId := ⟨0⟩

structure Resolution where
  width : UInt32
  height : UInt32
  deriving DecidableEq, Repr

def Resolution.pixelCount (res : Resolution) : UInt64 := res.width.toUInt64 * res.height.toUInt64

inductive PixelFormat where
  | bgra8
  | rgba8
  | rgb8
  | nv12
  deriving DecidableEq, Repr

def PixelFormat.bufferSize (fmt : PixelFormat) (res : Resolution) : UInt64 :=
  let pixels := res.pixelCount
  match fmt with
  | .bgra8 => pixels * 4
  | .rgba8 => pixels * 4
  | .rgb8 => pixels * 3
  | .nv12 => pixels + pixels / 2

structure DisplayInfo where
  id : DisplayId
  name : String
  resolution : Resolution
  refreshHz : UInt32
  isVirtual : Bool
  deriving DecidableEq, Repr

structure DisplayEntry where
  displayId : DisplayId
  x : Int32
  y : Int32
  resolution : Resolution
  deriving DecidableEq, Repr

structure DisplayLayout where
  entries : List DisplayEntry
  deriving DecidableEq, Repr

/-- Left and top edge, width and height. -/
def DisplayLayout.boundingBox (layout : DisplayLayout) : Int32 × Int32 × UInt32 × UInt32 :=
  if layout.entries.isEmpty then (0, 0, 0, 0)
  else
    let minX := (layout.entries.map fun e => e.x).min?.getD 0
    let minY := (layout.entries.map fun e => e.y).min?.getD 0
    let maxX := (layout.entries.map fun e => e.x + e.resolution.width.toInt32).max?.getD 0
    let maxY := (layout.entries.map fun e => e.y + e.resolution.height.toInt32).max?.getD 0
    (minX, minY, (maxX - minX).toUInt32, (maxY - minY).toUInt32)

end QuicView
