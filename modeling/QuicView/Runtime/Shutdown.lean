import QuicView.Library.Watch

/-!
# The shutdown controller

The state of a controller, its clones and all signals together, under the calls made on any of them.
A call on a handle that has been dropped, or was never handed out, does not happen.
-/

namespace QuicView

structure Shutdown (W : Watch Bool) where
  channel : W.Channel
  controllers : Nat
  /-- The signals in the order they were handed out, `true` while alive. -/
  signals : List Bool

namespace Shutdown

variable {W : Watch Bool}

def new : Shutdown W where
  channel := W.channel false
  controllers := 1
  signals := [true]

def clone (s : Shutdown W) : Shutdown W := { s with controllers := s.controllers + 1 }

def dropController (s : Shutdown W) : Shutdown W :=
  { s with
    controllers := s.controllers - 1
    channel := if s.controllers = 1 then W.dropSender s.channel else s.channel }

def trigger (s : Shutdown W) : Shutdown W :=
  { s with channel := (W.send s.channel true).2 }

def signal (s : Shutdown W) : Shutdown W :=
  { s with channel := W.subscribe s.channel, signals := s.signals ++ [true] }

def cloneSignal (s : Shutdown W) : Shutdown W :=
  { s with channel := W.cloneReceiver s.channel, signals := s.signals ++ [true] }

def dropSignal (s : Shutdown W) (signal : Nat) : Shutdown W :=
  { s with channel := W.dropReceiver s.channel, signals := s.signals.set signal false }

def default : Shutdown W := new.dropSignal 0

def IsLive (s : Shutdown W) (signal : Nat) : Prop := s.signals[signal]? = some true

instance (s : Shutdown W) (signal : Nat) : Decidable (s.IsLive signal) := by
  unfold IsLive
  infer_instance

def isShutdown (s : Shutdown W) (_signal : Nat) : Bool := W.borrow s.channel

/-- Whether waiting on a signal returns: shutdown was requested, or the sender was dropped. -/
def waitReturns (s : Shutdown W) (signal : Nat) : Bool :=
  s.isShutdown signal || W.closed s.channel

/-- Waiting on a signal over the moments of a run, from a call at the first of two moments to its
return at the second. When the loop is told of a change, and reads the flag again, is left open. -/
inductive Wait (moments : Nat → Shutdown W) (signal : Nat) : Nat → Nat → Prop where
  | requested {i : Nat} (hset : (moments i).isShutdown signal = true) : Wait moments signal i i
  | senderDropped {i j : Nat} (hunset : (moments i).isShutdown signal = false) (hle : i ≤ j)
      (hclosed : W.closed (moments j).channel = true) : Wait moments signal i j
  | changed {i j k : Nat} (hunset : (moments i).isShutdown signal = false) (hle : i ≤ j)
      (hagain : Wait moments signal j k) : Wait moments signal i k

inductive Call where
  | clone
  | dropController
  | trigger
  | signal
  | cloneSignal (signal : Nat)
  | dropSignal (signal : Nat)
  deriving DecidableEq

def Callable (s : Shutdown W) : Call → Prop
  | .clone | .dropController | .trigger | .signal => 0 < s.controllers
  | .cloneSignal signal | .dropSignal signal => s.IsLive signal

instance (s : Shutdown W) (call : Call) : Decidable (s.Callable call) := by
  cases call <;> unfold Callable <;> infer_instance

def apply (s : Shutdown W) : Call → Shutdown W
  | .clone => s.clone
  | .dropController => s.dropController
  | .trigger => s.trigger
  | .signal => s.signal
  | .cloneSignal _ => s.cloneSignal
  | .dropSignal signal => s.dropSignal signal

def step (s : Shutdown W) (call : Call) : Shutdown W :=
  if s.Callable call then s.apply call else s

end Shutdown

end QuicView
