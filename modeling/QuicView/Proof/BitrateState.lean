import QuicView.Codec.Bitrate
import QuicView.Library.Hysteresis

/-!
# The bitrate controller as a ladder

The quality stands for a rung, `10 + 5 * level`, and `adjust_quality` is one step of a ladder with
hysteresis, on the verdict the measured bitrate gives against the target.
-/

namespace QuicView.BitrateController

open Hysteresis

/-! ### The measured bitrate -/

def totalBytes (window : List (UInt64 × UInt64)) : Nat :=
  (window.map fun entry => entry.2.toNat).sum

def durationMs (window : List (UInt64 × UInt64)) : Nat :=
  match window.head?, window.getLast? with
  | some first, some last => max (last.1.toNat - first.1.toNat) 1
  | _, _ => 1

theorem toNat_sum_sizes (window : List (UInt64 × UInt64)) :
    (window.map Prod.snd).sum.toNat = totalBytes window % 2 ^ 64 := by
  induction window with
  | nil => rfl
  | cons entry window ih =>
      simp only [totalBytes] at ih ⊢
      rw [List.map_cons, List.sum_cons, UInt64.toNat_add, ih, List.map_cons, List.sum_cons]
      omega

theorem toNat_measuredBps (ctrl : BitrateController) :
    ctrl.measuredBps.toNat
      = if ctrl.window.length < 2 then 0
        else totalBytes ctrl.window * 8000 % 2 ^ 64 / durationMs ctrl.window := by
  unfold measuredBps
  split
  · rfl
  · rename_i hlen
    have hne : ctrl.window ≠ [] := by
      rintro hnil
      simp [hnil] at hlen
    have hbits : ((ctrl.window.map Prod.snd).sum * 8 * 1000).toNat
        = totalBytes ctrl.window * 8000 % 2 ^ 64 := by
      rw [UInt64.toNat_mul, UInt64.toNat_mul, toNat_sum_sizes]
      simp only [UInt64.reduceToNat]
      omega
    have hduration : durationMs ctrl.window
        = max ((ctrl.window.getLast hne).1.toNat - (ctrl.window.head hne).1.toNat) 1 := by
      rw [durationMs, List.head?_eq_some_head hne, List.getLast?_eq_some_getLast hne]
    rw [UInt64.toNat_div, UInt64.toNat_max, UInt64.toNat_saturatingSub, hduration]
    exact congrArg (· / _) hbits

/-! ### The verdict and the ladder -/

def verdict (ctrl : BitrateController) : Verdict :=
  if ctrl.measuredBps > ctrl.targetBps then .above
  else if ctrl.measuredBps < ctrl.targetBps * 3 / 4 then .below
  else .within

def qualityLadder : Ladder where
  top := 18
  fallAfter := 3
  riseAfter := 5

/-- The controller's quality and counters stand for a state of the ladder. -/
structure Represents (ctrl : BitrateController) (s : State) : Prop where
  quality : ctrl.quality.toNat = 10 + 5 * s.level
  overs : ctrl.overBudgetCount.toNat = s.overs
  unders : ctrl.underBudgetCount.toNat = s.unders
  level_le : s.level ≤ qualityLadder.top
  overs_lt : s.overs < qualityLadder.fallAfter
  unders_lt : s.unders < qualityLadder.riseAfter

theorem represents_new (targetBps : UInt64) :
    Represents (new targetBps) { level := 14, overs := 0, unders := 0 } :=
  ⟨rfl, rfl, rfl, by decide, by decide, by decide⟩

theorem adjustQuality_eq (ctrl : BitrateController) :
    ctrl.adjustQuality
      = match ctrl.verdict with
        | .above =>
            if ctrl.overBudgetCount + 1 ≥ 3 then
              { ctrl with
                quality := max (ctrl.quality.saturatingSub 5) 10
                overBudgetCount := 0, underBudgetCount := 0 }
            else
              { ctrl with overBudgetCount := ctrl.overBudgetCount + 1, underBudgetCount := 0 }
        | .below =>
            if ctrl.underBudgetCount + 1 ≥ 5 then
              { ctrl with
                quality := min (ctrl.quality + 5) 100
                overBudgetCount := 0, underBudgetCount := 0 }
            else
              { ctrl with underBudgetCount := ctrl.underBudgetCount + 1, overBudgetCount := 0 }
        | .within => { ctrl with overBudgetCount := 0, underBudgetCount := 0 } := by
  unfold verdict
  by_cases habove : ctrl.measuredBps > ctrl.targetBps
  · rw [adjustQuality, if_pos habove, if_pos habove]
  · by_cases hbelow : ctrl.measuredBps < ctrl.targetBps * 3 / 4
    · rw [adjustQuality, if_neg habove, if_neg habove, if_pos hbelow, if_pos hbelow]
    · rw [adjustQuality, if_neg habove, if_neg habove, if_neg hbelow, if_neg hbelow]

theorem adjustQuality_frame (ctrl : BitrateController) :
    ∃ quality overs unders, ctrl.adjustQuality
      = { ctrl with quality := quality, overBudgetCount := overs, underBudgetCount := unders } := by
  rw [adjustQuality_eq]
  cases ctrl.verdict with
  | above =>
      dsimp only
      split
      · exact ⟨_, _, _, rfl⟩
      · exact ⟨_, _, _, rfl⟩
  | below =>
      dsimp only
      split
      · exact ⟨_, _, _, rfl⟩
      · exact ⟨_, _, _, rfl⟩
  | within => exact ⟨_, _, _, rfl⟩

@[simp]
theorem adjustQuality_targetBps (ctrl : BitrateController) :
    ctrl.adjustQuality.targetBps = ctrl.targetBps := by
  obtain ⟨_, _, _, heq⟩ := ctrl.adjustQuality_frame
  rw [heq]

@[simp]
theorem adjustQuality_window (ctrl : BitrateController) :
    ctrl.adjustQuality.window = ctrl.window := by
  obtain ⟨_, _, _, heq⟩ := ctrl.adjustQuality_frame
  rw [heq]

@[simp]
theorem adjustQuality_windowMs (ctrl : BitrateController) :
    ctrl.adjustQuality.windowMs = ctrl.windowMs := by
  obtain ⟨_, _, _, heq⟩ := ctrl.adjustQuality_frame
  rw [heq]

theorem Represents.above {ctrl : BitrateController} {s : State} (h : Represents ctrl s)
    (hverdict : ctrl.verdict = .above) :
    Represents ctrl.adjustQuality (Hysteresis.step qualityLadder s .above) := by
  obtain ⟨hquality, hovers, hunders, hlevel, hoversLt, hundersLt⟩ := h
  simp only [qualityLadder] at hlevel hoversLt hundersLt
  have hcount : (ctrl.overBudgetCount + 1).toNat = s.overs + 1 := by
    rw [UInt32.toNat_add, hovers, UInt32.toNat_one]
    omega
  rw [adjustQuality_eq, hverdict]
  by_cases hfall : s.overs + 1 ≥ 3
  · have hfall' : ctrl.overBudgetCount + 1 ≥ 3 := by
      rwa [ge_iff_le, UInt32.le_iff_toNat_le, hcount]
    have hlower : (max (ctrl.quality.saturatingSub 5) 10).toNat = 10 + 5 * (s.level - 1) := by
      rw [UInt8.toNat_max, UInt8.toNat_saturatingSub, hquality]
      simp only [UInt8.reduceToNat]
      omega
    have hstep : Hysteresis.step qualityLadder s .above
        = { level := s.level - 1, overs := 0, unders := 0 } := if_pos hfall
    rw [if_pos hfall', hstep]
    exact ⟨hlower, rfl, rfl, by simp only [qualityLadder]; omega, Nat.zero_lt_succ _,
      Nat.zero_lt_succ _⟩
  · have hfall' : ¬ ctrl.overBudgetCount + 1 ≥ 3 := by
      rwa [ge_iff_le, UInt32.le_iff_toNat_le, hcount]
    have hstep : Hysteresis.step qualityLadder s .above
        = { level := s.level, overs := s.overs + 1, unders := 0 } := if_neg hfall
    rw [if_neg hfall', hstep]
    exact ⟨hquality, hcount, rfl, hlevel, by simp only [qualityLadder]; omega, Nat.zero_lt_succ _⟩

theorem Represents.below {ctrl : BitrateController} {s : State} (h : Represents ctrl s)
    (hverdict : ctrl.verdict = .below) :
    Represents ctrl.adjustQuality (Hysteresis.step qualityLadder s .below) := by
  obtain ⟨hquality, hovers, hunders, hlevel, hoversLt, hundersLt⟩ := h
  simp only [qualityLadder] at hlevel hoversLt hundersLt
  have hcount : (ctrl.underBudgetCount + 1).toNat = s.unders + 1 := by
    rw [UInt32.toNat_add, hunders, UInt32.toNat_one]
    omega
  rw [adjustQuality_eq, hverdict]
  by_cases hrise : s.unders + 1 ≥ 5
  · have hrise' : ctrl.underBudgetCount + 1 ≥ 5 := by
      rwa [ge_iff_le, UInt32.le_iff_toNat_le, hcount]
    have hhigher : (min (ctrl.quality + 5) 100).toNat = 10 + 5 * min (s.level + 1) 18 := by
      have hfits : (10 + 5 * s.level + 5) % 2 ^ 8 = 10 + 5 * (s.level + 1) :=
        Nat.mod_eq_of_lt (by omega)
      rw [UInt8.toNat_min, UInt8.toNat_add, hquality]
      simp only [UInt8.reduceToNat, hfits]
      omega
    have hstep : Hysteresis.step qualityLadder s .below
        = { level := min (s.level + 1) 18, overs := 0, unders := 0 } := if_pos hrise
    rw [if_pos hrise', hstep]
    exact ⟨hhigher, rfl, rfl, Nat.min_le_right _ _, Nat.zero_lt_succ _, Nat.zero_lt_succ _⟩
  · have hrise' : ¬ ctrl.underBudgetCount + 1 ≥ 5 := by
      rwa [ge_iff_le, UInt32.le_iff_toNat_le, hcount]
    have hstep : Hysteresis.step qualityLadder s .below
        = { level := s.level, overs := 0, unders := s.unders + 1 } := if_neg hrise
    rw [if_neg hrise', hstep]
    exact ⟨hquality, rfl, hcount, hlevel, Nat.zero_lt_succ _, by simp only [qualityLadder]; omega⟩

/-- **`adjust_quality` is one step of the ladder**, on the verdict of the measured bitrate. -/
theorem Represents.adjustQuality {ctrl : BitrateController} {s : State} (h : Represents ctrl s) :
    Represents ctrl.adjustQuality (Hysteresis.step qualityLadder s ctrl.verdict) := by
  cases hverdict : ctrl.verdict with
  | above => exact h.above hverdict
  | below => exact h.below hverdict
  | within =>
      rw [adjustQuality_eq, hverdict]
      exact ⟨h.quality, rfl, rfl, h.level_le, Nat.zero_lt_succ _, Nat.zero_lt_succ _⟩

def slide (ctrl : BitrateController) (timestampMs sizeBytes : UInt64) : BitrateController :=
  { ctrl with
    window := (ctrl.window ++ [(timestampMs, sizeBytes)]).dropWhile fun entry =>
      entry.1 < timestampMs.saturatingSub ctrl.windowMs }

theorem recordFrame_eq (ctrl : BitrateController) (timestampMs sizeBytes : UInt64) :
    ctrl.recordFrame timestampMs sizeBytes = (ctrl.slide timestampMs sizeBytes).adjustQuality := rfl

theorem Represents.congr {ctrl ctrl' : BitrateController} {s : State} (h : Represents ctrl s)
    (hquality : ctrl'.quality = ctrl.quality)
    (hovers : ctrl'.overBudgetCount = ctrl.overBudgetCount)
    (hunders : ctrl'.underBudgetCount = ctrl.underBudgetCount) : Represents ctrl' s :=
  ⟨by rw [hquality, h.quality], by rw [hovers, h.overs], by rw [hunders, h.unders],
    h.level_le, h.overs_lt, h.unders_lt⟩

end QuicView.BitrateController
