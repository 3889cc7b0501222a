import QuicView.Proof.ShutdownDelivery

/-!
# Waiting for shutdown and asking for it

Waiting ends when the flag is set or when the last controller is gone, while asking reads the flag
alone. So the two part when the last controller goes, under a live signal, before a request that was
heard.
-/

namespace QuicView.Shutdown

open Execution

variable {W : Watch Bool}

theorem Wait.waitReturns {moments : ℕ → Shutdown W} {signal i j : ℕ}
    (hwait : Wait moments signal i j) : (moments j).waitReturns signal = true := by
  induction hwait with
  | requested hset => rw [Shutdown.waitReturns, hset, Bool.true_or]
  | senderDropped _ _ hclosed => rw [Shutdown.waitReturns, hclosed, Bool.or_true]
  | changed _ _ _ ih => exact ih

theorem wait_of_waitReturns {moments : ℕ → Shutdown W} {signal i : ℕ}
    (hreturns : (moments i).waitReturns signal = true) : Wait moments signal i i := by
  rw [Shutdown.waitReturns, Bool.or_eq_true] at hreturns
  by_cases hset : (moments i).isShutdown signal = true
  · exact .requested hset
  · exact .senderDropped (eq_false_of_ne_true hset) le_rfl (hreturns.resolve_left hset)

namespace Observed

variable {o : Observed W}

/-- Every wait that ends now finds the flag set. -/
def ViewsAgree (o : Observed W) : Prop :=
  ∀ signal, o.shutdown.IsLive signal → o.shutdown.waitReturns signal = true →
    o.shutdown.isShutdown signal = true

/-- The last controller goes, while a signal is alive, after a request that was heard. -/
def LeavesHeard (o : Observed W) (call : Call) : Prop :=
  call = .dropController → o.shutdown.controllers = 1 →
    (∃ signal, o.shutdown.IsLive signal) → o.heard = true

theorem leavesHeard_of_ne {call : Call} (hne : call ≠ .dropController) : o.LeavesHeard call :=
  fun hdrop => absurd hdrop hne

structure Tracked (o : Observed W) : Prop extends o.Consistent where
  closed : W.closed o.shutdown.channel = true ↔ o.shutdown.controllers = 0
  requested : o.heard = true → o.triggered = true

theorem tracked_new (hW : W.Lawful) : (start (W := W) .new).Tracked where
  toConsistent := consistent_new hW
  closed := by
    have hopen : W.closed (W.channel false) = false := hW.closed_channel false
    exact iff_of_false (Bool.eq_false_iff.mp hopen) Nat.one_ne_zero
  requested := nofun

theorem tracked_default (hW : W.Lawful) : (start (W := W) .default).Tracked where
  toConsistent := consistent_default hW
  closed := by
    have hopen : W.closed (W.dropReceiver (W.channel false)) = false := by
      rw [hW.closed_dropReceiver, hW.closed_channel]
    exact iff_of_false (Bool.eq_false_iff.mp hopen) Nat.one_ne_zero
  requested := nofun

theorem Tracked.open_of_pos (h : o.Tracked) (hpos : 0 < o.shutdown.controllers) :
    W.closed o.shutdown.channel = false :=
  eq_false_of_ne_true fun hclosed => hpos.ne' (h.closed.mp hclosed)

theorem Tracked.closed_of_eq (h : o.Tracked) {channel : W.Channel}
    (hsame : W.closed channel = W.closed o.shutdown.channel) :
    W.closed channel = true ↔ o.shutdown.controllers = 0 := by
  rw [hsame]
  exact h.closed

theorem Tracked.closed_apply (hW : W.Lawful) (h : o.Tracked) {call : Call}
    (hcallable : o.shutdown.Callable call) :
    W.closed (o.apply call).shutdown.channel = true ↔ (o.apply call).shutdown.controllers = 0 := by
  cases call with
  | clone =>
      have hopen := h.open_of_pos hcallable
      exact iff_of_false (Bool.eq_false_iff.mp hopen) (Nat.succ_ne_zero _)
  | dropController =>
      have hopen := h.open_of_pos hcallable
      have hpos : 0 < o.shutdown.controllers := hcallable
      show W.closed (if _ then _ else _) = true ↔ o.shutdown.controllers - 1 = 0
      by_cases hlast : o.shutdown.controllers = 1
      · rw [if_pos hlast]
        exact iff_of_true (hW.closed_dropSender _) (by omega)
      · rw [if_neg hlast]
        exact iff_of_false (Bool.eq_false_iff.mp hopen) (by omega)
  | trigger => exact h.closed_of_eq (hW.closed_send _ _)
  | signal => exact h.closed_of_eq (hW.closed_subscribe _)
  | cloneSignal signal => exact h.closed_of_eq (hW.closed_cloneReceiver _)
  | dropSignal signal => exact h.closed_of_eq (hW.closed_dropReceiver _)

theorem Tracked.requested_apply (h : o.Tracked) (call : Call) :
    (o.apply call).heard = true → (o.apply call).triggered = true := by
  cases call with
  | trigger => exact fun _ => rfl
  | clone | dropController | signal | cloneSignal | dropSignal => exact h.requested

theorem Tracked.step (hW : W.Lawful) (h : o.Tracked) (call : Call) : (o.step call).Tracked := by
  have hconsistent := h.toConsistent.step hW call
  unfold Observed.step at hconsistent ⊢
  by_cases hcallable : o.shutdown.Callable call
  · rw [if_pos hcallable] at hconsistent ⊢
    exact ⟨hconsistent, h.closed_apply hW hcallable, h.requested_apply call⟩
  · rwa [if_neg hcallable]

theorem Tracked.viewsAgree_iff (h : o.Tracked) :
    o.ViewsAgree ↔ (o.shutdown.controllers = 0 → ∀ signal, o.shutdown.IsLive signal →
      o.heard = true) := by
  have hreads : ∀ signal, o.shutdown.isShutdown signal = o.heard := fun _ => h.flag
  unfold ViewsAgree
  simp only [Shutdown.waitReturns, hreads, Bool.or_eq_true, h.closed]
  constructor
  · exact fun hagree hgone signal hlive => hagree signal hlive (Or.inr hgone)
  · rintro hgone signal hlive (hheard | hclosed)
    · exact hheard
    · exact hgone hclosed signal hlive

theorem Tracked.viewsAgree_step_iff (hW : W.Lawful) (h : o.Tracked) (hagree : o.ViewsAgree)
    (call : Call) : (o.step call).ViewsAgree ↔ o.LeavesHeard call := by
  rw [(h.step hW call).viewsAgree_iff]
  rw [h.viewsAgree_iff] at hagree
  by_cases hcallable : o.shutdown.Callable call
  · rw [Observed.step, if_pos hcallable]
    cases call with
    | clone =>
        refine iff_of_true (fun hgone => ?_) (leavesHeard_of_ne (by simp))
        exact absurd hgone (Nat.succ_ne_zero _)
    | dropController =>
        have hpos : 0 < o.shutdown.controllers := hcallable
        constructor
        · rintro hleft - hlast ⟨signal, hlive⟩
          exact hleft (Nat.sub_eq_zero_of_le hlast.le) signal hlive
        · intro hheard hgone signal hlive
          have hgone : o.shutdown.controllers - 1 = 0 := hgone
          exact hheard rfl (by omega) ⟨signal, hlive⟩
    | trigger =>
        refine iff_of_true (fun hgone => ?_) (leavesHeard_of_ne (by simp))
        exact absurd hgone (Nat.ne_of_gt hcallable)
    | signal =>
        refine iff_of_true (fun hgone => ?_) (leavesHeard_of_ne (by simp))
        exact absurd hgone (Nat.ne_of_gt hcallable)
    | cloneSignal signal =>
        -- the signal cloned is itself alive
        refine iff_of_true (fun hgone _ _ => ?_) (leavesHeard_of_ne (by simp))
        exact hagree hgone signal hcallable
    | dropSignal signal =>
        refine iff_of_true (fun hgone live hlive => ?_) (leavesHeard_of_ne (by simp))
        exact hagree hgone live (isLive_of_set_false hlive)
  · rw [Observed.step, if_neg hcallable]
    refine iff_of_true hagree ?_
    rintro rfl hlast
    exact absurd (show 0 < o.shutdown.controllers by omega) hcallable

end Observed

/-! ### Over a run -/

def moments (s : Shutdown W) (calls : List Call) (i : ℕ) : Shutdown W :=
  run step s (calls.take i)

def triggeredAt (s : Shutdown W) (calls : List Call) (i : ℕ) : Bool :=
  (run Observed.step (.start s) (calls.take i)).triggered

structure WaitsAgree (s : Shutdown W) (calls : List Call) : Prop where
  /-- A wait that returns to its task, the signal still being its own, finds the flag set. -/
  flagged : ∀ signal i j, Wait (moments s calls) signal i j → (moments s calls j).IsLive signal →
    (moments s calls j).isShutdown signal = true
  /-- No wait returns while a controller is alive and nothing was triggered. -/
  notEarly : ∀ signal i j, Wait (moments s calls) signal i j →
    (moments s calls j).controllers = 0 ∨ triggeredAt s calls j = true

variable {s : Shutdown W} {calls : List Call}

theorem always_viewsAgree_iff :
    Always Observed.step Observed.ViewsAgree (.start s) calls
      ↔ ∀ signal i j, Wait (moments s calls) signal i j → (moments s calls j).IsLive signal →
          (moments s calls j).isShutdown signal = true := by
  simp only [always_iff_take, Observed.ViewsAgree, Observed.shutdown_run]
  constructor
  · exact fun hagree signal i j hwait hlive => hagree j signal hlive hwait.waitReturns
  · exact fun hflagged i signal hlive hreturns =>
      hflagged signal i i (wait_of_waitReturns hreturns) hlive

theorem Observed.Tracked.not_early {o : Observed W} (h : o.Tracked) {signal : ℕ}
    (hreturns : o.shutdown.waitReturns signal = true) :
    o.shutdown.controllers = 0 ∨ o.triggered = true := by
  rw [Shutdown.waitReturns, Bool.or_eq_true] at hreturns
  rcases hreturns with hset | hclosed
  · have hheard : o.heard = true := h.flag.symm.trans hset
    exact Or.inr (h.requested hheard)
  · exact Or.inl (h.closed.mp hclosed)

/-- **When waiting and asking agree.** Every wait that returns finds the flag set, and none returns
early, exactly in the runs in which the last controller goes under a live signal only after a
request that was heard. -/
theorem waitsAgree_iff (hW : W.Lawful) (hstart : s = .new ∨ s = .default) (calls : List Call) :
    WaitsAgree s calls ↔ Guarded Observed.step Observed.LeavesHeard (.start s) calls := by
  have htracked : (Observed.start s).Tracked := by
    rcases hstart with rfl | rfl
    · exact Observed.tracked_new hW
    · exact Observed.tracked_default hW
  have hstep : ∀ (o : Observed W) call, o.Tracked → (o.step call).Tracked :=
    fun o call h => h.step hW call
  have hagree : (Observed.start s).ViewsAgree := by
    refine htracked.viewsAgree_iff.mpr fun hgone => ?_
    rcases hstart with rfl | rfl <;> cases hgone
  have hguarded := always_iff_guarded _ hstep
    (fun o call h hagree => h.viewsAgree_step_iff hW hagree call) calls htracked hagree
  rw [← hguarded, always_viewsAgree_iff]
  constructor
  · exact fun hwaits => hwaits.flagged
  · refine fun hflagged => ⟨hflagged, fun signal i j hwait => ?_⟩
    have hreturns := hwait.waitReturns
    have hmoment : (run Observed.step (.start s) (calls.take j)).shutdown = moments s calls j :=
      Observed.shutdown_run _ _
    rw [← hmoment] at hreturns ⊢
    exact (invariant_run hstep (calls.take j) htracked).not_early hreturns

theorem waitsAgree_iff_cell :
    WaitsAgree (.new : Shutdown (Watch.cell Bool)) [.signal, .trigger, .dropController]
      ↔ Guarded Observed.step Observed.LeavesHeard (.start (.new : Shutdown (Watch.cell Bool)))
          [.signal, .trigger, .dropController] :=
  waitsAgree_iff (Watch.cell_lawful Bool) (Or.inl rfl) _

theorem wait_returns_unrequested :
    ¬ ∀ (W : Watch Bool), W.Lawful → ∀ calls : List Call, WaitsAgree (.new : Shutdown W) calls := by
  intro hall
  have hflagged := (hall (Watch.cell Bool) (Watch.cell_lawful Bool) [.dropController]).flagged
    0 0 1 (.senderDropped rfl (by decide) rfl) rfl
  cases hflagged

end QuicView.Shutdown
