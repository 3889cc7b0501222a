import QuicView.Net.AddrText
import QuicView.Runtime.Config
import QuicView.Runtime.Metrics
import QuicView.Runtime.Shutdown
import QuicView.Transport.Listener

/-!
# The serve loop

The loop and the tasks each choose between futures that may both be ready, so an event says which of
them was taken; one whose future is not ready is not taken.
-/

namespace QuicView

def serveAddr (bind : Option String) (config : Config) : Except AddrParseError SocketAddr :=
  SocketAddr.fromStr (bind.getD config.bindAddr)

inductive SessionPhase where
  | running
  /-- Done with that, the connection still counted. -/
  | closing
  | closed
  deriving DecidableEq

structure ViewerSession (Q : Quinn) where
  connection : Q.Connection
  signal : Nat
  phase : SessionPhase

inductive ServeStatus (Q : Quinn) where
  | listening
  | stopped
  | failed (err : TransportError Q)

structure Server (Q : Quinn) (W : Watch Bool) where
  status : ServeStatus Q
  metrics : Metrics
  shutdown : Shutdown W
  shutdownSig : Nat
  awaitsCtrlC : Bool
  sessions : List (ViewerSession Q)

inductive ServeEvent (Q : Quinn) where
  | ctrlC
  | accept (incoming : Option (Except Q.ConnectionError Q.Connection))
  | shutdownSeen
  | viewerReturned (session : Nat) (result : Except String Unit)
  | viewerDisconnected (session : Nat)
  | connectionClosed (session : Nat)

namespace Server

variable {Q : Quinn} {W : Watch Bool}

/-- The loop before its first iteration. The controller's own signal stays alive until the command
returns. -/
def start : Server Q W where
  status := .listening
  metrics := .new
  shutdown := Shutdown.new.clone.signal
  shutdownSig := 1
  awaitsCtrlC := true
  sessions := []

def sessionIn (s : Server Q W) (session : Nat) (phase : SessionPhase) : Option (ViewerSession Q) :=
  s.sessions[session]?.filter (·.phase = phase)

def setPhase (s : Server Q W) (session : Nat) (viewer : ViewerSession Q) (phase : SessionPhase) :
    Server Q W :=
  { s with sessions := s.sessions.set session { viewer with phase := phase } }

def ctrlC (s : Server Q W) : Server Q W :=
  if s.awaitsCtrlC then
    { s with awaitsCtrlC := false, shutdown := s.shutdown.trigger.dropController }
  else s

def accept (s : Server Q W) (incoming : Option (Except Q.ConnectionError Q.Connection)) :
    Server Q W :=
  match QuicListener.accept incoming with
  | .error err => { s with status := .failed err }
  | .ok connection =>
      { s with
        metrics := s.metrics.connectionOpened
        shutdown := s.shutdown.signal
        sessions := s.sessions ++ [
          { connection := connection
            signal := s.shutdown.signals.length
            phase := .running }] }

def shutdownSeen (s : Server Q W) : Server Q W :=
  if s.shutdown.waitReturns s.shutdownSig then { s with status := .stopped } else s

def viewerReturned (s : Server Q W) (session : Nat) (result : Except String Unit) : Server Q W :=
  match s.sessionIn session .running with
  | none => s
  | some viewer =>
      let metrics :=
        match result with
        | .ok () => s.metrics
        | .error _ => s.metrics.recordError
      { s.setPhase session viewer .closing with metrics := metrics }

def viewerDisconnected (s : Server Q W) (session : Nat) : Server Q W :=
  match s.sessionIn session .running with
  | none => s
  | some viewer =>
      if s.shutdown.waitReturns viewer.signal then s.setPhase session viewer .closing else s

def connectionClosed (s : Server Q W) (session : Nat) : Server Q W :=
  match s.sessionIn session .closing with
  | none => s
  | some viewer =>
      { s.setPhase session viewer .closed with
        metrics := s.metrics.connectionClosed
        shutdown := s.shutdown.dropSignal viewer.signal }

def react (s : Server Q W) : ServeEvent Q → Server Q W
  | .ctrlC => s.ctrlC
  | .accept incoming => s.accept incoming
  | .shutdownSeen => s.shutdownSeen
  | .viewerReturned session result => s.viewerReturned session result
  | .viewerDisconnected session => s.viewerDisconnected session
  | .connectionClosed session => s.connectionClosed session

def step (s : Server Q W) (event : ServeEvent Q) : Server Q W :=
  match s.status with
  | .listening => s.react event
  | _ => s

/-- Once the loop has ended it takes nothing more, but until the command returns the tasks go on. -/
def advance (s : Server Q W) (event : ServeEvent Q) : Server Q W :=
  match event with
  | .accept _ | .shutdownSeen => s.step event
  | _ => s.react event

end Server

structure ServeCommand (Q : Quinn) (W : Watch Bool) where
  server : Server Q W
  returned : Bool

inductive CommandEvent (Q : Quinn) where
  | serve (event : ServeEvent Q)
  | returns

namespace ServeCommand

variable {Q : Quinn} {W : Watch Bool}

def start : ServeCommand Q W where
  server := .start
  returned := false

def step (c : ServeCommand Q W) : CommandEvent Q → ServeCommand Q W
  | .serve event => if c.returned then c else { c with server := c.server.advance event }
  | .returns =>
      match c.server.status with
      | .listening => c
      | _ => { c with returned := true }

end ServeCommand

end QuicView
