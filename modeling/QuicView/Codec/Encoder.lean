import QuicView.Codec.Delta
import QuicView.Library.Lockstep

namespace QuicView

open Lockstep

structure RawCodec where
  deriving DecidableEq, Repr

namespace RawCodec

def encode (codec : RawCodec) (raw : Bytes) : Except CodecError Bytes × RawCodec := (.ok raw, codec)

def decode (codec : RawCodec) (compressed : Bytes) : Except CodecError Bytes × RawCodec :=
  (.ok compressed, codec)

end RawCodec

abbrev FrameCodec (Encoder Decoder : Type) := Codec CodecError Encoder Decoder Bytes Bytes

def rawCodec : FrameCodec RawCodec RawCodec where
  encode := RawCodec.encode
  decode := RawCodec.decode

def deltaCodec : FrameCodec DeltaCodec DeltaCodec where
  encode := DeltaCodec.encode
  decode := DeltaCodec.decode

end QuicView
