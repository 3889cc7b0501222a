import QuicView.Library.Saturating
import QuicView.Session.Negotiation

/-!
# Power management

A call that names a display acts on its first entry and leaves any other alone; a tick goes through
all of them.
-/

namespace QuicView

inductive PowerState where
  | active
  | sleep
  | waking
  deriving DecidableEq, Repr

structure PowerEntry where
  displayId : DisplayId
  state : PowerState
  lastActiveMs : UInt64
  deriving DecidableEq, Repr

structure PowerManager where
  timeoutMs : UInt64
  states : List PowerEntry
  deriving DecidableEq, Repr

namespace PowerManager

def new (timeoutMs : UInt64) : PowerManager where
  timeoutMs := timeoutMs
  states := []

def register (pm : PowerManager) (displayId : DisplayId) (nowMs : UInt64) : PowerManager :=
  { pm with states := pm.states ++ [{ displayId, state := .active, lastActiveMs := nowMs }] }

/-- The loop of `touch` and `wake`: the first entry of the display is made active. -/
def activate (displayId : DisplayId) (nowMs : UInt64) : List PowerEntry → List PowerEntry
  | [] => []
  | entry :: entries =>
      if entry.displayId = displayId then
        { entry with state := .active, lastActiveMs := nowMs } :: entries
      else entry :: activate displayId nowMs entries

def touch (pm : PowerManager) (displayId : DisplayId) (nowMs : UInt64) : PowerManager :=
  { pm with states := activate displayId nowMs pm.states }

def tooIdle (pm : PowerManager) (nowMs : UInt64) (entry : PowerEntry) : Bool :=
  entry.state = .active && nowMs.saturatingSub entry.lastActiveMs > pm.timeoutMs

def tick (pm : PowerManager) (nowMs : UInt64) : List DisplayId × PowerManager :=
  ((pm.states.filter (pm.tooIdle nowMs)).map (·.displayId),
    { pm with
      states := pm.states.map fun entry =>
        if pm.tooIdle nowMs entry then { entry with state := .sleep } else entry })

def wake (pm : PowerManager) (displayId : DisplayId) (nowMs : UInt64) :
    Except SessionError Unit × PowerManager :=
  if pm.states.any (·.displayId = displayId) then
    (.ok (), { pm with states := activate displayId nowMs pm.states })
  else
    (.error (.negotiationFailed
      s!"display display:{displayId.id} not registered for power management"), pm)

def state (pm : PowerManager) (displayId : DisplayId) : Option PowerState :=
  (pm.states.find? (·.displayId = displayId)).map (·.state)

def sleepingDisplays (pm : PowerManager) : List DisplayId :=
  (pm.states.filter (·.state = .sleep)).map (·.displayId)

inductive Call where
  | register (displayId : DisplayId) (nowMs : UInt64)
  | touch (displayId : DisplayId) (nowMs : UInt64)
  | tick (nowMs : UInt64)
  | wake (displayId : DisplayId) (nowMs : UInt64)
  deriving DecidableEq, Repr

def step (pm : PowerManager) : Call → PowerManager
  | .register displayId nowMs => pm.register displayId nowMs
  | .touch displayId nowMs => pm.touch displayId nowMs
  | .tick nowMs => (pm.tick nowMs).2
  | .wake displayId nowMs => (pm.wake displayId nowMs).2

end PowerManager

end QuicView
