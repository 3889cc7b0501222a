import QuicView.Codec.Delta
import QuicView.Library.Chunks

namespace QuicView

open Chunks

/-- The buffer is changed in place, and is the second component. -/
def bgraToRgba (buf : Bytes) : Except CodecError Unit × Bytes :=
  if buf.length % 4 ≠ 0 then (.error (.bufferMismatch (buf.length / 4 * 4) buf.length), buf)
  else (.ok (), modifyChunks 4 (fun pixel => pixel.swap 0 2) buf)

def rgbaToRgb (rgba : Bytes) : Except CodecError Bytes :=
  if rgba.length % 4 ≠ 0 then .error (.bufferMismatch (rgba.length / 4 * 4) rgba.length)
  else .ok (ofChunks ((chunksExact 4 rgba).map fun pixel => (pixel.take 3 : Vector UInt8 3)))

end QuicView
