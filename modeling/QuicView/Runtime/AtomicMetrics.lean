import Mathlib.Logic.Function.Basic
import QuicView.Library.Interleaving
import QuicView.Runtime.Metrics

namespace QuicView

open Interleaving

inductive Counter where
  | framesSent
  | framesReceived
  | bytesSent
  | bytesReceived
  | activeConnections
  | totalConnections
  | errors
  deriving DecidableEq

inductive AtomicOp where
  | fetchAdd (counter : Counter) (amount : UInt64)
  | fetchSub (counter : Counter) (amount : UInt64)
  | load (counter : Counter)
  deriving DecidableEq

structure MetricsSnapshot where
  framesSent : UInt64
  framesReceived : UInt64
  bytesSent : UInt64
  bytesReceived : UInt64
  activeConnections : UInt64
  totalConnections : UInt64
  errors : UInt64
  deriving DecidableEq

namespace AtomicMetrics

abbrev Counters := Counter → UInt64

def new : Counters := fun _ => 0

def exec (op : AtomicOp) (counters : Counters) : UInt64 × Counters :=
  match op with
  | .fetchAdd counter amount =>
      (counters counter, Function.update counters counter (counters counter + amount))
  | .fetchSub counter amount =>
      (counters counter, Function.update counters counter (counters counter - amount))
  | .load counter => (counters counter, counters)

def recordFrameSent (bytes : UInt64) : List AtomicOp :=
  [.fetchAdd .framesSent 1, .fetchAdd .bytesSent bytes]

def recordFrameReceived (bytes : UInt64) : List AtomicOp :=
  [.fetchAdd .framesReceived 1, .fetchAdd .bytesReceived bytes]

def connectionOpened : List AtomicOp :=
  [.fetchAdd .activeConnections 1, .fetchAdd .totalConnections 1]

def connectionClosed : List AtomicOp := [.fetchSub .activeConnections 1]

def recordError : List AtomicOp := [.fetchAdd .errors 1]

def snapshot : List AtomicOp :=
  [.load .framesSent, .load .framesReceived, .load .bytesSent, .load .bytesReceived,
    .load .activeConnections, .load .totalConnections, .load .errors]

inductive Call where
  | recordFrameSent (bytes : UInt64)
  | recordFrameReceived (bytes : UInt64)
  /-- `connection_opened`, and some time after it `connection_closed` of the same connection. -/
  | connection
  | recordError
  | snapshot
  deriving DecidableEq

def program : Call → List AtomicOp
  | .recordFrameSent bytes => recordFrameSent bytes
  | .recordFrameReceived bytes => recordFrameReceived bytes
  | .connection => connectionOpened ++ connectionClosed
  | .recordError => recordError
  | .snapshot => snapshot

def system : System Call AtomicOp UInt64 Counters where
  program := program
  exec := exec

def returned (task : Task Call UInt64) : Option MetricsSnapshot :=
  match task.call, task.results with
  | .snapshot, [framesSent, framesReceived, bytesSent, bytesReceived, active, total, errors] =>
      some
        { framesSent := framesSent
          framesReceived := framesReceived
          bytesSent := bytesSent
          bytesReceived := bytesReceived
          activeConnections := active
          totalConnections := total
          errors := errors }
  | _, _ => none

/-! ### Taken without interruption -/

def execAll (ops : List AtomicOp) (counters : Counters) : Counters :=
  ops.foldl (fun counters op => (exec op counters).2) counters

def toMetrics (counters : Counters) : Metrics where
  activeConnections := counters .activeConnections
  totalConnections := counters .totalConnections
  errors := counters .errors

def perform (metrics : Metrics) : Call → Metrics
  | .connection => metrics.connectionOpened.connectionClosed
  | .recordError => metrics.recordError
  | _ => metrics

theorem toMetrics_execAll_program (call : Call) (counters : Counters) :
    toMetrics (execAll (program call) counters) = perform (toMetrics counters) call := by
  cases call <;> rfl

end AtomicMetrics

end QuicView
