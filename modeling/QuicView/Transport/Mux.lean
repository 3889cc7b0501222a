import QuicView.Library.ByteStream
import QuicView.Transport.Listener

namespace QuicView

open ByteStream

inductive StreamKind where
  | video
  | input
  | control
  deriving DecidableEq, Repr

def StreamKind.toU8 : StreamKind → UInt8
  | .video => 0
  | .input => 1
  | .control => 2

variable {Q : Quinn}

def StreamKind.fromTag (tag : UInt8) : Except (TransportError Q) StreamKind :=
  if tag = 0 then .ok .video
  else if tag = 1 then .ok .input
  else if tag = 2 then .ok .control
  else .error (.protocol (.decode s!"unknown stream kind: {tag}"))

def maxControlMessageSize : Nat := 1024 * 1024

namespace StreamMux

def «open» (kind : StreamKind) : Program (TransportError Q) Unit :=
  writeAll .sendFailed [kind.toU8]

def accept : Program (TransportError Q) StreamKind := do
  let tag ← readExact .recvFailed 1
  check id (StreamKind.fromTag (tag.headD 0))

end StreamMux

end QuicView
