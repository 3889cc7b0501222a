import QuicView.Input.SendInput
import QuicView.Library.Mpsc

/-!
# The input forwarder

The forwarder, and a run of it with the tasks that send and the reader: each step is a call that
does not wait any longer, on whichever side.
-/

namespace QuicView

structure Receiver where
  deriving DecidableEq, Repr

structure InputForwarder (M : Mpsc InputEvent) where
  tx : M.Channel
  rx : Option Receiver

namespace InputForwarder

variable {M : Mpsc InputEvent}

/-- Nothing for a capacity that the channel refuses. -/
def new (capacity : Nat) : Option (InputForwarder M) :=
  (M.channel capacity).map fun channel => { tx := channel, rx := some {} }

/-- Nothing while the send waits for room. -/
def send (forwarder : InputForwarder M) (event : InputEvent) :
    Option (Except InputError Unit × InputForwarder M) :=
  (M.send forwarder.tx event).map fun (queued, channel) =>
    (if queued then .ok () else .error .channelClosed, { forwarder with tx := channel })

def takeReceiver (forwarder : InputForwarder M) : Option Receiver × InputForwarder M :=
  (forwarder.rx, { forwarder with rx := none })

end InputForwarder

inductive SendOutcome where
  | returned (result : Except InputError Unit)
  | cancelled

/-- A task that captures input: the events whose send has ended, in order, and those it has yet to
send, the first of which it is sending. -/
structure CaptureTask where
  ended : List (InputEvent × SendOutcome)
  script : List InputEvent

def CaptureTask.start (script : List InputEvent) : CaptureTask where
  ended := []
  script := script

inductive ForwardEvent where
  | send (task : Nat)
  | cancel (task : Nat)
  | takeReceiver
  | recv
  | close
  | dropReceiver
  deriving DecidableEq, Repr

structure Forwarding (M : Mpsc InputEvent) where
  forwarder : InputForwarder M
  tasks : List CaptureTask
  takes : List (Option Receiver)
  receiver : Option Receiver
  accepted : List (Nat × InputEvent)
  received : List InputEvent
  toldEnd : Bool

namespace Forwarding

variable {M : Mpsc InputEvent}

def start (capacity : Nat) (scripts : List (List InputEvent)) : Option (Forwarding M) :=
  (InputForwarder.new capacity).map fun forwarder =>
    { forwarder := forwarder
      tasks := scripts.map .start
      takes := []
      receiver := none
      accepted := []
      received := []
      toldEnd := false }

def sending (s : Forwarding M) (i : Nat) :
    Option (CaptureTask × InputEvent × List InputEvent) :=
  s.tasks[i]?.bind fun task =>
    match task.script with
    | [] => none
    | event :: rest => some (task, event, rest)

def endSend (s : Forwarding M) (i : Nat) (task : CaptureTask) (event : InputEvent)
    (rest : List InputEvent) (outcome : SendOutcome) : Forwarding M :=
  { s with tasks := s.tasks.set i ⟨task.ended ++ [(event, outcome)], rest⟩ }

def send (s : Forwarding M) (i : Nat) : Forwarding M :=
  match s.sending i with
  | none => s
  | some (task, event, rest) =>
      match s.forwarder.send event with
      | none => s
      | some (.ok (), forwarder) =>
          { s.endSend i task event rest (.returned (.ok ())) with
            forwarder := forwarder
            accepted := s.accepted ++ [(i, event)] }
      | some (.error err, forwarder) =>
          { s.endSend i task event rest (.returned (.error err)) with forwarder := forwarder }

def cancel (s : Forwarding M) (i : Nat) : Forwarding M :=
  match s.sending i with
  | none => s
  | some (task, event, rest) => s.endSend i task event rest .cancelled

def takeReceiver (s : Forwarding M) : Forwarding M :=
  let (taken, forwarder) := s.forwarder.takeReceiver
  { s with
    forwarder := forwarder
    takes := s.takes ++ [taken]
    receiver := s.receiver.or taken }

def setChannel (s : Forwarding M) (channel : M.Channel) : Forwarding M :=
  { s with forwarder := { s.forwarder with tx := channel } }

def recv (s : Forwarding M) : Forwarding M :=
  match s.receiver with
  | none => s
  | some _ =>
      match M.recv s.forwarder.tx with
      | none => s
      | some (some event, channel) =>
          { s.setChannel channel with received := s.received ++ [event] }
      | some (none, channel) => { s.setChannel channel with toldEnd := true }

def close (s : Forwarding M) : Forwarding M :=
  match s.receiver with
  | none => s
  | some _ => s.setChannel (M.close s.forwarder.tx)

def dropReceiver (s : Forwarding M) : Forwarding M :=
  match s.receiver with
  | none => s
  | some _ => { s.setChannel (M.dropReceiver s.forwarder.tx) with receiver := none }

def step (s : Forwarding M) : ForwardEvent → Forwarding M
  | .send task => s.send task
  | .cancel task => s.cancel task
  | .takeReceiver => s.takeReceiver
  | .recv => s.recv
  | .close => s.close
  | .dropReceiver => s.dropReceiver

end Forwarding

end QuicView
