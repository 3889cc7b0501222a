import Mathlib.Data.List.Basic
import QuicView.Library.Saturating

/-!
# The bitrate controller

Machine arithmetic wraps, as in a release build; `usize` is 64 bits wide.
-/

namespace QuicView

structure BitrateController where
  targetBps : UInt64
  quality : UInt8
  /-- Timestamps in milliseconds and frame sizes in bytes, oldest first. -/
  window : List (UInt64 × UInt64)
  windowMs : UInt64
  overBudgetCount : UInt32
  underBudgetCount : UInt32
  deriving DecidableEq, Repr

namespace BitrateController

def new (targetBps : UInt64) : BitrateController where
  targetBps := targetBps
  quality := 80
  window := []
  windowMs := 2000
  overBudgetCount := 0
  underBudgetCount := 0

def measuredBps (ctrl : BitrateController) : UInt64 :=
  if hlen : ctrl.window.length < 2 then 0
  else
    have hne : ctrl.window ≠ [] := by
      rintro hnil
      simp [hnil] at hlen
    let firstTs := (ctrl.window.head hne).1
    let lastTs := (ctrl.window.getLast hne).1
    let durationMs := max (lastTs.saturatingSub firstTs) 1
    let totalBytes := (ctrl.window.map fun entry => entry.2).sum
    totalBytes * 8 * 1000 / durationMs

def adjustQuality (ctrl : BitrateController) : BitrateController :=
  let measured := ctrl.measuredBps
  if measured > ctrl.targetBps then
    let ctrl := { ctrl with overBudgetCount := ctrl.overBudgetCount + 1, underBudgetCount := 0 }
    if ctrl.overBudgetCount ≥ 3 then
      { ctrl with quality := max (ctrl.quality.saturatingSub 5) 10, overBudgetCount := 0 }
    else ctrl
  else if measured < ctrl.targetBps * 3 / 4 then
    let ctrl := { ctrl with underBudgetCount := ctrl.underBudgetCount + 1, overBudgetCount := 0 }
    if ctrl.underBudgetCount ≥ 5 then
      { ctrl with quality := min (ctrl.quality + 5) 100, underBudgetCount := 0 }
    else ctrl
  else { ctrl with overBudgetCount := 0, underBudgetCount := 0 }

def recordFrame (ctrl : BitrateController) (timestampMs sizeBytes : UInt64) : BitrateController :=
  let window := ctrl.window ++ [(timestampMs, sizeBytes)]
  let cutoff := timestampMs.saturatingSub ctrl.windowMs
  adjustQuality { ctrl with window := window.dropWhile fun entry => entry.1 < cutoff }

def setTargetBps (ctrl : BitrateController) (target : UInt64) : BitrateController :=
  { ctrl with targetBps := target }

def shouldSkipFrame (ctrl : BitrateController) : Bool :=
  ctrl.measuredBps > ctrl.targetBps * 3 / 2

inductive Call where
  | recordFrame (timestampMs sizeBytes : UInt64)
  | setTargetBps (target : UInt64)
  deriving DecidableEq, Repr

def step (ctrl : BitrateController) : Call → BitrateController
  | .recordFrame timestampMs sizeBytes => ctrl.recordFrame timestampMs sizeBytes
  | .setTargetBps target => ctrl.setTargetBps target

end BitrateController

end QuicView
