import QuicView.Protocol.Basic

/-!
# The QUIC listener

Connections and their errors are those of the QUIC library, of which nothing is assumed.
-/

namespace QuicView

/-- What the QUIC library calls connections, connection errors and write errors. -/
structure Quinn where
  Connection : Type
  ConnectionError : Type
  WriteError : Type

inductive TransportError (Q : Quinn) where
  | connectionFailed (reason : String)
  | streamClosed
  | streamOpenFailed (reason : String)
  | tls (reason : String)
  | bindFailed (reason : String)
  | acceptFailed (reason : String)
  | sendFailed (reason : String)
  | recvFailed (reason : String)
  | timeout
  | protocol (err : ProtocolError)
  | quinn (err : Q.ConnectionError)
  | writeError (err : Q.WriteError)

namespace QuicListener

variable {Q : Quinn}

def accept (incoming : Option (Except Q.ConnectionError Q.Connection)) :
    Except (TransportError Q) Q.Connection :=
  match incoming with
  | none => .error (.acceptFailed "endpoint closed")
  | some (.error err) => .error (.quinn err)
  | some (.ok connection) => .ok connection

end QuicListener

end QuicView
