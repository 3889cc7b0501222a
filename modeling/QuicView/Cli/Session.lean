import QuicView.Library.Wire
import QuicView.Protocol.Message
import QuicView.Transport.Mux

namespace QuicView

open ByteStream Wire

/-- The JSON library. -/
structure SerdeJson where
  Error : Type
  toVec : ControlMessage → Except Error (List UInt8)
  fromSlice : List UInt8 → Except Error ControlMessage

def asciiBytes (text : String) : List UInt8 := text.toList.map fun c => c.toNat.toUInt8

def timestampText (variant : String) (timestampMs : UInt64) : List UInt8 :=
  asciiBytes ("\x7b\"" ++ variant ++ "\":\x7b\"timestamp_ms\":" ++ toString timestampMs.toNat
    ++ "\x7d\x7d")

/-- What is relied on: a message is parsed from its own text, and the texts of the two messages that
are exchanged. -/
structure SerdeJson.Lawful (J : SerdeJson) : Prop where
  fromSlice_toVec : ∀ msg bytes, J.toVec msg = .ok bytes → J.fromSlice bytes = .ok msg
  toVec_ping : ∀ t, J.toVec (.ping t) = .ok (timestampText "Ping" t)
  toVec_pong : ∀ t, J.toVec (.pong t) = .ok (timestampText "Pong" t)

inductive ExchangeError (Q : Quinn) (J : SerdeJson) where
  | transport (err : TransportError Q)
  | read (reason : String)
  | write (reason : String)
  | json (err : J.Error)
  | message (text : String)

variable {Q : Quinn}

/-- Reads a message after its length; the two sides have texts of their own for one too large. -/
def readControl (J : SerdeJson) (tooLarge : Nat → String) :
    Program (ExchangeError Q J) ControlMessage := do
  let lenBuf ← readExact .read 4
  let len := ofBigEndian lenBuf
  if maxControlMessageSize < len then fail (.message (tooLarge len))
  else
    allocate len
    let buf ← readExact .read len
    check .json (J.fromSlice buf)

def writeControl (J : SerdeJson) (msg : ControlMessage) : Program (ExchangeError Q J) Unit := do
  let payload ← check .json (J.toVec msg)
  writeAll .write (bigEndian 4 payload.length)
  writeAll .write payload

def handleViewer (J : SerdeJson) : Program (ExchangeError Q J) Unit := do
  let kind ← mapError .transport StreamMux.accept
  match kind with
  | .control =>
      let msg ← readControl J fun len =>
        s!"control message too large: {len} bytes (max {maxControlMessageSize})"
      match msg with
      | .ping timestampMs => writeControl J (.pong timestampMs)
      | _ => pure ()
  | .video | .input => pure ()

def connect (J : SerdeJson) (timestampMs : UInt64) :
    Program (ExchangeError Q J) ControlMessage := do
  mapError .transport (StreamMux.open .control)
  writeControl J (.ping timestampMs)
  readControl J fun len => s!"control response too large: {len} bytes"

end QuicView
