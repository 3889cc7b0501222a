import QuicView.Library.Execution
import QuicView.Proof.BitrateState

/-!
# The bitrate controller is monotone in load

The windows of the two controllers hold frames of the same timestamps, so the loaded one measures at
least the bitrate of the other and its verdict is at least as heavy: the domination of ladders. A
product that wraps can turn a heavy load into a light one, hence the bounds on sizes and targets.
-/

namespace QuicView.BitrateController

open Hysteresis Execution

inductive Call.Lighter : Call → Call → Prop
  | recordFrame {timestampMs sizeLight sizeHeavy : UInt64} (hsize : sizeLight ≤ sizeHeavy) :
      Lighter (.recordFrame timestampMs sizeLight) (.recordFrame timestampMs sizeHeavy)
  | setTargetBps {targetLight targetHeavy : UInt64} (htarget : targetHeavy ≤ targetLight) :
      Lighter (.setTargetBps targetLight) (.setTargetBps targetHeavy)

/-- The products the controller compares do not wrap. -/
structure Exact (ctrl : BitrateController) : Prop where
  bits_lt : totalBytes ctrl.window * 8000 < 2 ^ 64
  target_lt : ctrl.targetBps.toNat * 3 < 2 ^ 64

instance : DecidablePred Exact := fun ctrl =>
  decidable_of_iff (totalBytes ctrl.window * 8000 < 2 ^ 64 ∧ ctrl.targetBps.toNat * 3 < 2 ^ 64)
    ⟨fun h => ⟨h.1, h.2⟩, fun h => ⟨h.1, h.2⟩⟩

abbrev WindowLe (light heavy : List (UInt64 × UInt64)) : Prop :=
  List.Forall₂ (fun l h => l.1 = h.1 ∧ l.2 ≤ h.2) light heavy

section Window

variable {light heavy : List (UInt64 × UInt64)}

theorem WindowLe.totalBytes_le (h : WindowLe light heavy) :
    totalBytes light ≤ totalBytes heavy := by
  induction h with
  | nil => exact Nat.le_refl _
  | cons hentry _ ih =>
      simp only [totalBytes, List.map_cons, List.sum_cons] at ih ⊢
      exact Nat.add_le_add (UInt64.le_iff_toNat_le.mp hentry.2) ih

theorem WindowLe.stamps_eq (h : WindowLe light heavy) :
    light.map Prod.fst = heavy.map Prod.fst := by
  induction h with
  | nil => rfl
  | cons hentry _ ih => rw [List.map_cons, List.map_cons, hentry.1, ih]

theorem durationMs_eq_of_stamps_eq (h : light.map Prod.fst = heavy.map Prod.fst) :
    durationMs light = durationMs heavy := by
  have hhead : light.head?.map Prod.fst = heavy.head?.map Prod.fst := by
    rw [← List.head?_map, ← List.head?_map, h]
  have hlast : light.getLast?.map Prod.fst = heavy.getLast?.map Prod.fst := by
    rw [← List.getLast?_map, ← List.getLast?_map, h]
  unfold durationMs
  cases hl : light.head? <;> cases hh : heavy.head? <;> cases hl' : light.getLast? <;>
    cases hh' : heavy.getLast? <;> simp_all

theorem WindowLe.dropWhile (h : WindowLe light heavy) (expired : UInt64 → Bool) :
    WindowLe (light.dropWhile fun entry => expired entry.1)
      (heavy.dropWhile fun entry => expired entry.1) := by
  induction h with
  | nil => exact .nil
  | cons hentry hrest ih =>
      rw [List.dropWhile_cons, List.dropWhile_cons, hentry.1]
      split
      · exact ih
      · exact .cons hentry hrest

end Window

variable {light heavy : BitrateController}

theorem measuredBps_le (hwindow : WindowLe light.window heavy.window) (hexact : Exact heavy) :
    light.measuredBps ≤ heavy.measuredBps := by
  have hbytes := hwindow.totalBytes_le
  have hheavy : totalBytes heavy.window * 8000 < 2 ^ 64 := hexact.bits_lt
  have hlight : totalBytes light.window * 8000 < 2 ^ 64 :=
    Nat.lt_of_le_of_lt (Nat.mul_le_mul_right 8000 hbytes) hheavy
  rw [UInt64.le_iff_toNat_le, toNat_measuredBps, toNat_measuredBps, hwindow.length_eq,
    durationMs_eq_of_stamps_eq hwindow.stamps_eq, Nat.mod_eq_of_lt hheavy,
    Nat.mod_eq_of_lt hlight]
  split
  · exact Nat.le_refl _
  · exact Nat.div_le_div_right (Nat.mul_le_mul_right _ hbytes)

theorem threshold_le (htarget : heavy.targetBps ≤ light.targetBps) (hexact : Exact light) :
    heavy.targetBps * 3 / 4 ≤ light.targetBps * 3 / 4 := by
  rw [UInt64.le_iff_toNat_le] at htarget ⊢
  have hlight : light.targetBps.toNat * 3 < 2 ^ 64 := hexact.target_lt
  have hheavy : heavy.targetBps.toNat * 3 < 2 ^ 64 := by omega
  rw [UInt64.toNat_div, UInt64.toNat_div, UInt64.toNat_mul, UInt64.toNat_mul]
  simp only [UInt64.reduceToNat]
  rw [Nat.mod_eq_of_lt hheavy, Nat.mod_eq_of_lt hlight]
  exact Nat.div_le_div_right (Nat.mul_le_mul_right _ htarget)

theorem verdict_lighter (hwindow : WindowLe light.window heavy.window)
    (htarget : heavy.targetBps ≤ light.targetBps) (hlight : Exact light) (hheavy : Exact heavy) :
    light.verdict.Lighter heavy.verdict := by
  have hmeasured := measuredBps_le hwindow hheavy
  have hthreshold := threshold_le htarget hlight
  simp only [UInt64.le_iff_toNat_le] at hmeasured hthreshold htarget
  unfold verdict
  simp only [gt_iff_lt, UInt64.lt_iff_toNat_lt]
  split
  · -- an overload of the light run is one of the heavy run
    rw [if_pos (by omega)]
    trivial
  split
  · trivial
  · -- short of slack, the heavy run is short of it too
    split
    · trivial
    · rw [if_neg (by omega)]
      trivial

/-- What couples the two runs: the same timestamps, frames and target on the loaded side at least
and at most those of the other, and a dominated ladder. -/
structure Coupled (light heavy : BitrateController) : Prop where
  target_le : heavy.targetBps ≤ light.targetBps
  windowMs_eq : heavy.windowMs = light.windowMs
  window_le : WindowLe light.window heavy.window
  ladder : ∃ idle loaded, Represents light idle ∧ Represents heavy loaded
    ∧ Dominated qualityLadder loaded idle

theorem coupled_new {targetLight targetHeavy : UInt64} (htarget : targetHeavy ≤ targetLight) :
    Coupled (new targetLight) (new targetHeavy) :=
  ⟨htarget, rfl, .nil, _, _, represents_new _, represents_new _, .refl _ _⟩

theorem Coupled.quality_le (h : Coupled light heavy) : heavy.quality ≤ light.quality := by
  obtain ⟨idle, loaded, hidle, hloaded, hdominated⟩ := h.ladder
  have hlevel := hdominated.level_le
  rw [UInt8.le_iff_toNat_le, hidle.quality, hloaded.quality]
  omega

theorem Coupled.slide (h : Coupled light heavy) (timestampMs : UInt64)
    {sizeLight sizeHeavy : UInt64} (hsize : sizeLight ≤ sizeHeavy) :
    Coupled (light.slide timestampMs sizeLight) (heavy.slide timestampMs sizeHeavy) := by
  obtain ⟨htarget, hwindowMs, hwindow, idle, loaded, hidle, hloaded, hdominated⟩ := h
  have hpushed : WindowLe (light.window ++ [(timestampMs, sizeLight)])
      (heavy.window ++ [(timestampMs, sizeHeavy)]) :=
    List.rel_append hwindow (.cons ⟨rfl, hsize⟩ .nil)
  refine ⟨htarget, hwindowMs, ?_, idle, loaded, hidle.congr rfl rfl rfl,
    hloaded.congr rfl rfl rfl, hdominated⟩
  rw [BitrateController.slide, BitrateController.slide, hwindowMs]
  exact hpushed.dropWhile fun ts => ts < timestampMs.saturatingSub light.windowMs

theorem Coupled.adjustQuality (h : Coupled light heavy) (hlight : Exact light)
    (hheavy : Exact heavy) : Coupled light.adjustQuality heavy.adjustQuality := by
  obtain ⟨htarget, hwindowMs, hwindow, idle, loaded, hidle, hloaded, hdominated⟩ := h
  have hverdict := verdict_lighter hwindow htarget hlight hheavy
  exact ⟨by simpa using htarget, by simpa using hwindowMs, by simpa using hwindow, _, _,
    hidle.adjustQuality, hloaded.adjustQuality, hdominated.step hidle.level_le hverdict⟩

theorem Coupled.step {callLight callHeavy : Call} (h : Coupled light heavy)
    (hcall : callLight.Lighter callHeavy) (hlight : Exact (light.step callLight))
    (hheavy : Exact (heavy.step callHeavy)) :
    Coupled (light.step callLight) (heavy.step callHeavy) := by
  cases hcall with
  | setTargetBps htarget =>
      obtain ⟨_, hwindowMs, hwindow, idle, loaded, hidle, hloaded, hdominated⟩ := h
      exact ⟨htarget, hwindowMs, hwindow, idle, loaded, hidle.congr rfl rfl rfl,
        hloaded.congr rfl rfl rfl, hdominated⟩
  | recordFrame hsize =>
      simp only [BitrateController.step, recordFrame_eq] at hlight hheavy ⊢
      have hlight' : Exact (light.slide _ _) :=
        ⟨by simpa using hlight.bits_lt, by simpa using hlight.target_lt⟩
      have hheavy' : Exact (heavy.slide _ _) :=
        ⟨by simpa using hheavy.bits_lt, by simpa using hheavy.target_lt⟩
      exact (h.slide _ hsize).adjustQuality hlight' hheavy'

/-- **The controller is monotone in load.** Of two controllers making the same calls at the same
times, the one given larger frames and lower targets never recommends the higher quality, as long as
the compared products stay within 64 bits. -/
theorem quality_le_of_heavier_load {targetLight targetHeavy : UInt64}
    (htarget : targetHeavy ≤ targetLight) {callsLight callsHeavy : List Call}
    (hcalls : List.Forall₂ Call.Lighter callsLight callsHeavy)
    (hlight : Always step Exact (new targetLight) callsLight)
    (hheavy : Always step Exact (new targetHeavy) callsHeavy) (n : Nat) :
    (run step (new targetHeavy) (callsHeavy.take n)).quality
      ≤ (run step (new targetLight) (callsLight.take n)).quality := by
  have hcalls' : List.Forall₂ Call.Lighter (callsLight.take n) (callsHeavy.take n) :=
    List.forall₂_take n hcalls
  have hstep : ∀ light heavy callLight callHeavy, Exact (step light callLight) →
      Exact (step heavy callHeavy) → Coupled light heavy → callLight.Lighter callHeavy →
      Coupled (step light callLight) (step heavy callHeavy) :=
    fun _ _ _ _ hlight hheavy hcoupled hcall => hcoupled.step hcall hlight hheavy
  have hcoupled := run_simulation hstep hcalls' (hlight.of_prefix (List.take_prefix n _))
    (hheavy.of_prefix (List.take_prefix n _)) (coupled_new htarget)
  exact hcoupled.quality_le

theorem quality_le_of_heavier_load_three :
    let callsLight : List Call := [.setTargetBps 9000000, .recordFrame 0 100, .recordFrame 33 100,
      .recordFrame 66 100, .recordFrame 50 100]
    let callsHeavy : List Call := [.setTargetBps 1000, .recordFrame 0 100, .recordFrame 33 500,
      .recordFrame 66 100, .recordFrame 50 100]
    (run step (new 1000) callsHeavy).quality ≤ (run step (new 9000000) callsLight).quality :=
  quality_le_of_heavier_load (by decide)
    (.cons (.setTargetBps (by decide)) (.cons (.recordFrame (by decide))
      (.cons (.recordFrame (by decide)) (.cons (.recordFrame (by decide))
        (.cons (.recordFrame (by decide)) .nil)))))
    (by decide) (by decide) 5

end QuicView.BitrateController
