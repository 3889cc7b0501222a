import Mathlib.Data.List.Basic

namespace QuicView

/-- A byte buffer: `Vec<u8>`, `&[u8]`, `Bytes` and `BytesMut` alike. -/
abbrev Bytes := List UInt8

inductive ProtocolError where
  | invalidFrame (reason : String)
  | unknownFrameKind (kind : UInt8)
  | unknownInputEvent (tag : UInt8)
  | payloadTooLarge (size max : Nat)
  | invalidDisplayId (id : UInt32)
  | decode (reason : String)
  deriving DecidableEq, Repr

end QuicView
