import Mathlib.Logic.Function.Basic
import QuicView.Cli.Serve
import QuicView.Cli.Session

/-!
# The host and its viewers

The loop and the handler as one system. A viewer sends bytes, ends its stream or stops the host's,
and its task returns once the handler has a result on what has arrived.
-/

namespace QuicView

open ByteStream

structure ViewerStream where
  arrived : List UInt8
  ending : Option String
  /-- How much of what the host writes the viewer takes, and the error of a write past it, or `none`
  while it takes all. -/
  stop : Option (Nat × String)
  deriving DecidableEq

namespace ViewerStream

def silent : ViewerStream where
  arrived := []
  ending := none
  stop := none

/-- Nothing arrives on a stream that has ended. -/
def arrive (stream : ViewerStream) (bytes : List UInt8) : ViewerStream :=
  if stream.ending = none then { stream with arrived := stream.arrived ++ bytes } else stream

def finish (stream : ViewerStream) (reason : String) : ViewerStream :=
  if stream.ending = none then { stream with ending := some reason } else stream

def refuse (stream : ViewerStream) (taken : Nat) (reason : String) : ViewerStream :=
  if stream.stop = none then { stream with stop := some (taken, reason) } else stream

def result (Q : Quinn) (J : SerdeJson) (stream : ViewerStream) :
    Except (Halt (ExchangeError Q J)) Unit :=
  (perform (handleViewer J) ((Endpoint.opened stream.arrived stream.ending).stopping stream.stop)).1

end ViewerStream

structure Host (Q : Quinn) (W : Watch Bool) where
  server : Server Q W
  /-- By the number of the session, those still to come included. -/
  streams : Nat → ViewerStream
  log : List (Nat × String)

inductive HostEvent (Q : Quinn) where
  | ctrlC
  | accept (incoming : Option (Except Q.ConnectionError Q.Connection))
  | shutdownSeen
  | arrived (session : Nat) (bytes : List UInt8)
  | finished (session : Nat) (reason : String)
  | refused (session : Nat) (taken : Nat) (reason : String)
  /-- The task of a viewer looks whether the handler returns. -/
  | handled (session : Nat)
  | viewerDisconnected (session : Nat)
  | connectionClosed (session : Nat)

def HostEvent.viewer {Q : Quinn} : HostEvent Q → Option Nat
  | .ctrlC | .accept _ | .shutdownSeen => none
  | .arrived session _ | .finished session _ | .refused session _ _ | .handled session
  | .viewerDisconnected session | .connectionClosed session => some session

namespace Host

variable {Q : Quinn} {W : Watch Bool}

def start : Host Q W where
  server := .start
  streams := fun _ => .silent
  log := []

def setStream (h : Host Q W) (session : Nat) (stream : ViewerStream) : Host Q W :=
  { h with streams := Function.update h.streams session stream }

def serve (h : Host Q W) (event : ServeEvent Q) : Host Q W :=
  { h with server := h.server.advance event }

/-- Writes are refused while the handler may still make some. -/
def refused (h : Host Q W) (session taken : Nat) (reason : String) : Host Q W :=
  match h.server.sessionIn session .running with
  | none => h
  | some _ => h.setStream session ((h.streams session).refuse taken reason)

variable (J : SerdeJson) (describe : ExchangeError Q J → String)

def handled (h : Host Q W) (session : Nat) : Host Q W :=
  match h.server.sessionIn session .running with
  | none => h
  | some _ =>
      match (h.streams session).result Q J with
      | .ok () => h.serve (.viewerReturned session (.ok ()))
      | .error (.failed err) =>
          { h.serve (.viewerReturned session (.error (describe err))) with
            log := h.log ++ [(session, describe err)] }
      | .error .waits => h

def step (h : Host Q W) : HostEvent Q → Host Q W
  | .ctrlC => h.serve .ctrlC
  | .accept incoming => h.serve (.accept incoming)
  | .shutdownSeen => h.serve .shutdownSeen
  | .arrived session bytes => h.setStream session ((h.streams session).arrive bytes)
  | .finished session reason => h.setStream session ((h.streams session).finish reason)
  | .refused session taken reason => h.refused session taken reason
  | .handled session => h.handled J describe session
  | .viewerDisconnected session => h.serve (.viewerDisconnected session)
  | .connectionClosed session => h.serve (.connectionClosed session)

end Host

end QuicView
