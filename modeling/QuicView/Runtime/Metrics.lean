import Mathlib.Data.UInt

namespace QuicView

structure Metrics where
  activeConnections : UInt64
  totalConnections : UInt64
  errors : UInt64
  deriving DecidableEq, Repr

namespace Metrics

def new : Metrics where
  activeConnections := 0
  totalConnections := 0
  errors := 0

def connectionOpened (m : Metrics) : Metrics :=
  { m with
    activeConnections := m.activeConnections + 1
    totalConnections := m.totalConnections + 1 }

def connectionClosed (m : Metrics) : Metrics :=
  { m with activeConnections := m.activeConnections - 1 }

def recordError (m : Metrics) : Metrics := { m with errors := m.errors + 1 }

end Metrics

end QuicView
